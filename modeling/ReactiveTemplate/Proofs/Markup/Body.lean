import ReactiveTemplate.Proofs.Markup.Rules

/-!
# The rules of the body

Every tag of the body brings its element, whatever paragraph, item, heading or link it closes first;
and every closing tag closes elements without losing one.
-/

namespace ReactiveTemplate
namespace Markup

namespace Construction

variable {c c' : Construction} {token : Token} {tag : Tag} {reply : Reply} {name : String}

/-! ## Steps of the body -/

theorem Leads.closeItem (leads : c.Leads c') (names : List String) :
    c.Leads (c'.closeItem names) := by
  unfold Construction.closeItem
  dsimp only
  split
  · split
    · exact (leads.closeImpliedExcept _).popNamed _
    · exact leads
  · exact leads

theorem Leads.openForeignBrings (leads : c.Leads c') {vocabulary : Vocabulary}
    (allowed : vocabulary = .html → name ∉ avoided) :
    Brings (Token.startTag tag).marks c (c'.openForeign vocabulary name tag) := by
  have carries (entry : String × String) (member : entry ∈ (Token.startTag tag).marks) :
      (c'.insertClosed vocabulary name (spellAttributes vocabulary tag.attributes)).2.store.Carries
        entry := by
    obtain ⟨listed, steady⟩ := Token.mem_of_mem_marks member
    exact leads.sound.carries_insertClosed _ _ (mem_spellAttributes steady listed)
  unfold openForeign
  dsimp only
  split
  · exact ⟨leads.insertClosed _ _ _, carries⟩
  · exact ⟨leads.insertOpen _ _ allowed _, carries⟩

theorem Leads.bodyEmptyBrings (leads : c.Leads c') (tag : Tag) :
    Brings tag.attributes c (c'.bodyEmpty tag) := by
  have empty := leads.reopenFormatting.addEmptyBrings tag
  unfold bodyEmpty
  dsimp only
  split
  · exact empty
  · exact empty.next (Leads.refl empty.sound).forbidFrames

theorem Leads.mergeBody (leads : c.Leads c') (tag : Tag) : c.Leads (c'.mergeBody tag) := by
  unfold Construction.mergeBody
  split
  · split
    · exact leads
    · exact (leads.addAttributes _ _).forbidFrames
  · exact leads

theorem Leads.openForm (leads : c.Leads c') (allowed : tag.name ∉ avoided) :
    c.Leads (c'.openForm tag) := by
  have opened := leads.closeOpenParagraph.openTag allowed
  unfold Construction.openForm
  dsimp only
  split
  · exact leads
  · split
    · exact opened
    · exact opened.flag _ _ _ _ _ _

theorem Leads.closeForm (leads : c.Leads c') : c.Leads c'.closeForm := by
  unfold Construction.closeForm
  split
  · split
    · exact (leads.closeImplied _).popNamed _
    · exact leads
  · split
    · exact leads
    · have forgotten : c.Leads { c' with form := none } := leads.flag _ _ _ _ _ _
      dsimp only
      split
      · exact (forgotten.closeImplied _).close _
      · exact forgotten

/-! ## Opening tags -/

/-- A rule that applies under a condition, and other rules if it does not. -/
theorem Served.or_else {p : Prop} [Decidable p] {first : Reply} {others : Option Reply}
    (yes : p → Served c token first) (no : ¬p → ∀ reply ∈ others, Served c token reply) :
    ∀ reply ∈ if p then some first else others, Served c token reply := by
  split
  · rintro reply ⟨rfl⟩
    exact yes ‹p›
  · exact no ‹¬p›

theorem Settled.bodyFormatting? (settled : c.Settled) :
    ∀ reply ∈ c.bodyFormatting? tag, Served c (.startTag tag) reply := by
  have start := Leads.refl settled.sound
  unfold Construction.bodyFormatting?
  refine .or_else ?link fun _ => .or_else ?formatting fun _ => .or_else ?unbroken
    fun _ _ none => (Option.not_mem_none _ none).elim
  case link =>
    intro link
    exact (start.closeOpenLink.reopenFormatting.openFormattingBrings
      (by rw [link]; decide)).part.served settled
  case formatting =>
    intro formatting
    have named : tag.name ∈ reopened :=
      List.mem_cons_of_mem _ (List.mem_cons_of_mem _ (by simpa using formatting))
    exact (start.reopenFormatting.openFormattingBrings named).part.served settled
  case unbroken =>
    intro unbroken
    have reopening := start.reopenFormatting
    exact (Leads.openFormattingBrings (.ite (reopening.closeFormatting "nobr").reopenFormatting
      reopening) (by rw [unbroken]; decide)).part.served settled

section Opening

variable (settled : c.Settled) (plain : (Token.startTag tag).Plain)
include settled plain

theorem Settled.bodyBlock? : ∀ reply ∈ c.bodyBlock? tag, Served c (.startTag tag) reply := by
  have allowed : tag.name ∉ avoided := fun member => plain (List.mem_cons_of_mem _ member)
  have start := Leads.refl settled.sound
  have opens {c' : Construction} (leads : c.Leads c') :
      Served c (.startTag tag) (c'.openTag tag).done :=
    (leads.openTagBrings allowed).part.served settled
  unfold Construction.bodyBlock?
  dsimp only
  refine .or_else ?block fun _ => .or_else ?heading fun _ => .or_else ?pre fun _ => .or_else ?form
    fun _ => .or_else ?item fun _ => .or_else ?term fun _ => .or_else ?text fun _ => .or_else ?table
    fun _ => .or_else ?rule fun _ => .or_else ?sample
    fun _ _ none => (Option.not_mem_none _ none).elim
  case block => exact fun _ => opens start.closeOpenParagraph
  case heading => exact fun _ => opens (.ite start.closeOpenParagraph.pop start.closeOpenParagraph)
  case pre =>
    intro _
    have opened := (start.closeOpenParagraph.openTagBrings allowed).part
    exact (opened.next ((Leads.refl opened.sound).forbidFrames.flag _ _ _ _ _ _)).served settled
  case form =>
    intro form
    exact ((start.openForm allowed).brings
      (Token.isSure_of_contextual (by rw [form]; decide))).served settled
  case item => exact fun _ => opens (start.forbidFrames.closeItem _).closeOpenParagraph
  case term => exact fun _ => opens (start.forbidFrames.closeItem _).closeOpenParagraph
  case text => exact fun text => (plain (text ▸ List.mem_cons_self)).elim
  case table =>
    intro table
    have opened : c.Leads
        ((if c.old = true then c else c.closeOpenParagraph).openTag tag).forbidFrames :=
      Leads.forbidFrames (Leads.openTag (.ite start start.closeOpenParagraph) allowed)
    exact (opened.brings (Token.isSure_of_contextual (by rw [table]; decide))).goTo settled rfl
  case rule =>
    intro _
    have empty := (start.closeOpenParagraph.addEmptyBrings tag).part
    exact (empty.next (Leads.refl empty.sound).forbidFrames).served settled
  case sample =>
    intro sample
    exact start.closeOpenParagraph.reopenFormatting.forbidFrames.openRaw settled
      (by rw [sample]; decide) rfl

theorem Settled.bodyInline : Served c (.startTag tag) (c.bodyInline tag) := by
  have allowed : tag.name ∉ avoided := fun member => plain (List.mem_cons_of_mem _ member)
  have start := Leads.refl settled.sound
  have opens {c' : Construction} (leads : c.Leads c') :
      Served c (.startTag tag) (c'.openTag tag).done :=
    (leads.openTagBrings allowed).part.served settled
  have busy {c' : Construction} (leads : c.Leads c') :
      Served c (.startTag tag) (c'.openTag tag).forbidFrames.done := by
    have opened := (leads.openTagBrings allowed).part
    exact (opened.next (Leads.refl opened.sound).forbidFrames).served settled
  have foreign {vocabulary : Vocabulary} (other : vocabulary ≠ .html) :
      Served c (.startTag tag) (c.openForeign vocabulary tag.name tag).done :=
    (start.openForeignBrings fun same => (other same).elim).served settled
  unfold Construction.bodyInline
  dsimp only
  refine .ite ?button fun _ => .ite ?object fun _ => .ite ?empty fun _ => .ite ?source fun _ =>
    .ite ?image fun _ => .ite ?area fun _ => .ite ?frame fun _ => .ite ?raw fun _ =>
    .ite ?list fun _ => .ite ?option fun _ => .ite ?base fun _ => .ite ?remark fun _ =>
    .ite ?formula fun _ => .ite ?graphics fun _ => .ite ?context fun _ => ?other
  case button =>
    have closed := (start.closeImplied impliedEnds).popNamed "button"
    exact fun _ => busy (Leads.reopenFormatting (.ite closed start))
  case object =>
    intro _
    have opened := (start.reopenFormatting.openTagBrings allowed).part
    exact (opened.next (Leads.refl opened.sound).mark.forbidFrames).served settled
  case empty => exact fun _ => (start.bodyEmptyBrings tag).part.served settled
  case source => exact fun _ => (start.addEmptyBrings tag).part.served settled
  case image =>
    intro _
    have empty : Brings tag.attributes c (c.bodyEmpty { tag with name := "img" }) :=
      start.bodyEmptyBrings { tag with name := "img" }
    exact empty.part.served settled
  case area =>
    intro area
    exact (start.forbidFrames.openRaw settled (by rw [area]; decide) rfl).flag _ _ _ _ _ _
  case frame => exact fun frame => start.forbidFrames.openRaw settled (by rw [frame]; decide) rfl
  case raw =>
    intro raw
    exact start.openRaw settled (by rcases raw with raw | raw <;> rw [raw] <;> decide) rfl
  case list => exact fun list => (allowed (list ▸ by decide)).elim
  case option => exact fun _ => opens (Leads.reopenFormatting (.ite start.pop start))
  case base => exact fun _ => opens (.ite (start.closeImplied _) start)
  case remark => exact fun _ => opens (.ite (start.closeImpliedExcept _) start)
  case formula => exact fun _ => foreign (by decide)
  case graphics => exact fun _ => foreign (by decide)
  case context =>
    intro context
    refine (start.brings (Token.isSure_of_contextual ?_)).served settled
    have listed : ∀ name ∈ ["caption", "col", "colgroup", "frame", "head", "tbody", "td", "tfoot",
        "th", "thead", "tr"], name ∉ avoided → name ∈ contextual := by
      decide
    exact listed _ (by simpa using context) allowed
  case other => exact opens start.reopenFormatting

theorem Settled.bodyStart : Served c (.startTag tag) (c.bodyStart tag) := by
  have allowed : tag.name ∉ avoided := fun member => plain (List.mem_cons_of_mem _ member)
  have start := Leads.refl settled.sound
  unfold Construction.bodyStart
  refine .ite ?root fun _ => .ite ?head fun _ => .ite ?body fun _ => .ite ?frames fun _ => ?other
  case root =>
    intro root
    exact ((start.mergeRoot tag).brings
      (Token.isSure_of_contextual (by rw [root]; decide))).served settled
  case head => exact fun _ => settled.headTag allowed
  case body =>
    intro body
    exact ((start.mergeBody tag).brings
      (Token.isSure_of_contextual (by rw [body]; decide))).served settled
  case frames => exact fun frames => (allowed (frames ▸ by decide)).elim
  case other =>
    cases block_eq : c.bodyBlock? tag with
    | some reply => exact settled.bodyBlock? plain reply block_eq
    | none =>
        cases formatting_eq : c.bodyFormatting? tag with
        | some reply => exact settled.bodyFormatting? reply formatting_eq
        | none => exact settled.bodyInline plain

end Opening

/-! ## Closing tags and text -/

theorem Settled.bodyEnd (settled : c.Settled) (tag : Tag) :
    Served c (.endTag tag) (c.bodyEnd tag) := by
  have start := Leads.refl settled.sound
  have closes {c' : Construction} (leads : c.Leads c') : Served c (.endTag tag) c'.done :=
    (leads.brings rfl).served settled
  unfold Construction.bodyEnd
  dsimp only
  refine .ite ?template fun _ => .ite ?body fun _ => .ite ?root fun _ => .ite ?block fun _ =>
    .ite ?form fun _ => .ite ?paragraph fun _ => .ite ?item fun _ => .ite ?term fun _ =>
    .ite ?heading fun _ => .ite ?formatting fun _ => .ite ?object fun _ => .ite ?line fun _ => ?other
  case template => exact fun _ => settled.servedCloseTemplate rfl
  case body =>
    intro _
    split
    · exact (start.brings rfl).goTo settled rfl
    · exact closes start
  case root => exact fun _ => .ite (fun _ => start.retry settled rfl nofun) fun _ => closes start
  case block => exact fun _ => closes (.ite ((start.closeImplied _).popNamed _) start)
  case form => exact fun _ => closes start.closeForm
  case paragraph =>
    exact fun _ => closes (Leads.closeParagraph (.ite start (start.openNamed (by decide))))
  case item => exact fun _ => closes (.ite ((start.closeImpliedExcept _).popNamed _) start)
  case term => exact fun _ => closes (.ite ((start.closeImpliedExcept _).popNamed _) start)
  case heading => exact fun _ => closes (.ite ((start.closeImplied _).popThrough _) start)
  case formatting => exact fun _ => closes (start.closeFormatting _)
  case object =>
    exact fun _ => closes (.ite ((start.closeImplied _).popNamed _).clearFormatting start)
  case line => exact fun _ => closes (start.bodyEmptyBrings _).toLeads
  case other => exact closes (start.closeOrdinary _)

/-- A character of text. -/
theorem Leads.inBody_character (leads : c.Leads c') (char : Char) :
    c.Leads (c'.inBody (.character char)).next :=
  Leads.addChar (.ite leads.reopenFormatting leads.reopenFormatting.forbidFrames) char

theorem Settled.inBody (settled : c.Settled) (plain : token.Plain) :
    Served c token (c.inBody token) := by
  have start := Leads.refl settled.sound
  cases token with
  | character char => exact ((start.inBody_character char).brings rfl).served settled
  | comment text => exact plain.elim
  | startTag tag => exact settled.bodyStart plain
  | endTag tag => exact settled.bodyEnd tag
  | ending => exact .ite (fun _ => (start.brings rfl).served settled) fun _ => settled.endTemplate rfl
  | _ => exact (start.brings rfl).served settled

end Construction
end Markup
end ReactiveTemplate
