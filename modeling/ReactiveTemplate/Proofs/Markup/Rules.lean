import ReactiveTemplate.Markup.Rules
import ReactiveTemplate.Proofs.Markup.Formatting
import ReactiveTemplate.Proofs.Markup.PlainText

/-!
# Rules that lose no tag

A tag is passed over where its element has no place: a list of options takes hardly any, and the
parts of a table are known in a table only.  Where no element of the first kind is open, every tag
that is not of the second kind brings its element, with its attributes, into the document.  What a
rule makes of a token is stated in one form, `Served`, and each rule is shown to have it.  A rule may
hand its token on; such a tag is handed on to a mode of lower height each time.
-/

namespace ReactiveTemplate
namespace Markup

/-- Tags that some rule passes over or adds to an element that is there. -/
def contextual : List String :=
  ["html", "head", "body", "frame", "form", "table", "caption", "tbody", "td", "tfoot", "th",
    "thead", "tr"]

/-- Ordinary elements whose content is text alone. -/
def rawNames : List String :=
  ["title", "textarea", "style", "script", "xmp", "iframe", "noembed", "noframes", "noscript"]

theorem not_avoided_of_rawNames {name : String} (raw : name ∈ rawNames) : name ∉ avoided := by
  revert name
  decide

/-- The name of an attribute is the same in all vocabularies. -/
def isSteadyKey (key : String) : Bool :=
  respell graphicsAttributes key == key && respell ["definitionURL"] key == key && key != "xmlns"

theorem mem_spellAttributes {vocabulary : Vocabulary} {entry : String × String}
    {attributes : List (String × String)} (steady : isSteadyKey entry.1 = true)
    (member : entry ∈ attributes) : entry ∈ spellAttributes vocabulary attributes := by
  obtain ⟨key, value⟩ := entry
  simp only [isSteadyKey, Bool.and_eq_true, beq_iff_eq, bne_iff_ne] at steady
  obtain ⟨⟨graphics, formula⟩, plain⟩ := steady
  have foreign {spelled : List (String × String)} (member : (key, value) ∈ spelled) :
      (key, value) ∈ foreignSpelling spelled :=
    List.mem_map.mpr ⟨_, member, by simp only [if_neg plain]⟩
  cases vocabulary with
  | html => exact member
  | svg => exact foreign (List.mem_map.mpr ⟨_, member, by simp only [graphics]⟩)
  | mathml => exact foreign (List.mem_map.mpr ⟨_, member, by simp only [formula]⟩)

namespace Token

/-- The token is an opening tag that no rule passes over. -/
def isSure : Token → Bool
  | startTag tag => !contextual.contains tag.name
  | _ => false

/-- The attributes that the token brings into the document. -/
def marks : Token → List (String × String)
  | startTag tag =>
    if contextual.contains tag.name then []
    else tag.attributes.filter fun entry => isSteadyKey entry.1
  | _ => []

/-- The token opens none of the elements in which tags are passed over, and is no comment. -/
def Plain : Token → Prop
  | startTag tag => tag.name ∉ "plaintext" :: avoided
  | comment _ => False
  | _ => True

/-- The token may be followed by text alone. -/
def OpensRaw : Token → Prop
  | startTag tag => tag.name ∈ rawNames
  | _ => False

variable {tag : Tag} {entry : String × String}

theorem mem_of_mem_marks (member : entry ∈ (startTag tag).marks) :
    entry ∈ tag.attributes ∧ isSteadyKey entry.1 = true := by
  rw [marks] at member
  split at member
  · cases member
  · exact List.mem_filter.mp member

theorem marks_of_contextual (known : tag.name ∈ contextual) : (startTag tag).marks = [] := by
  rw [marks, if_pos (List.contains_iff_mem.mpr known)]

theorem isSure_of_contextual (known : tag.name ∈ contextual) : (startTag tag).isSure = false := by
  rw [isSure, List.contains_iff_mem.mpr known]
  rfl

/-- A tag with one of some names that are passed over somewhere. -/
theorem Plain.unsure (plain : (startTag tag).Plain) {names : List String}
    (found : names.contains tag.name = true)
    (known : ∀ name ∈ names, name ∈ contextual ∨ name ∈ avoided) : (startTag tag).isSure = false := by
  have allowed : tag.name ∉ avoided := fun member => plain (List.mem_cons_of_mem _ member)
  exact isSure_of_contextual ((known _ (List.contains_iff_mem.mp found)).resolve_right allowed)

theorem marks_of_isSure {token : Token} (unsure : token.isSure = false) : token.marks = [] := by
  cases token with
  | startTag tag => exact marks_of_contextual (by simpa [isSure] using unsure)
  | _ => rfl

end Token

namespace Mode

/-- Tags are passed over in none of these modes but those that have no place there. -/
def isSettled : Mode → Bool
  | text | inTableText | inColumnGroup | inSelect | inSelectInTable | inFrameset | afterFrameset
  | afterAfterFrameset => false
  | _ => true

/-- The mode is one in which text belongs before the table. -/
def isTabular : Mode → Bool
  | inTable | inTableBody | inRow => true
  | _ => false

/-- How often a tag that no rule passes over may still be handed on. -/
def height : Mode → Nat
  | initial => 6
  | beforeHtml => 5
  | beforeHead => 4
  | inHead => 3
  | afterHead => 2
  | inTemplate | inTableText | afterBody | afterAfterBody => 1
  | _ => 0

theorem isSettled_of_isTabular {mode : Mode} (tabular : mode.isTabular = true) :
    mode.isSettled = true := by
  cases mode <;> first | rfl | cases tabular

theorem height_of_isTabular {mode : Mode} (tabular : mode.isTabular = true) : mode.height = 0 := by
  cases mode <;> first | rfl | cases tabular

theorem isSettled_ite {p : Prop} [Decidable p] {first second : Mode}
    (yes : first.isSettled = true) (no : second.isSettled = true) :
    (if p then first else second).isSettled = true := by
  split
  · exact yes
  · exact no

end Mode

namespace Construction

open Mode (isSettled_ite)

variable {c c' c'' : Construction} {token : Token} {tag : Tag} {entries : List (String × String)}
  {reply : Reply} {mode : Mode}

/-! ## What a rule makes of a token -/

/-- The document is sound, and the modes of its templates are settled. -/
structure Steady (c : Construction) : Prop where
  sound : c.Sound
  templateModes : ∀ mode ∈ c.templateModes, mode.isSettled = true

/-- Tags find a place in the document. -/
structure Settled (c : Construction) : Prop extends c.Steady where
  mode : c.mode.isSettled = true

/-- Tags find a place in the document, perhaps after some text of a table. -/
structure Calm (c : Construction) : Prop extends c.Steady where
  mode : c.mode.isSettled = true ∨ c.mode = .inTableText ∧ c.returnMode.isTabular = true

/-- The document takes text into an ordinary element. -/
structure Raw (c : Construction) : Prop extends c.Steady where
  mode : c.mode = .text
  returnMode : c.returnMode.isSettled = true
  current : ∃ name, c.store.element? c.current = some (.html, name)

/-- A rule has served a token: nothing is lost, and what the token brings is in the document unless
the token is handed on. -/
structure Served (c : Construction) (token : Token) (reply : Reply) : Prop where
  keeps : c.store.Keeps reply.next.store
  carries : reply.again = false → ∀ entry ∈ token.marks, reply.next.store.Carries entry
  lower : reply.again = true → token.isSure = true → reply.next.mode.height < c.mode.height
  outcome : (reply.feedback = .proceed ∧ reply.next.Calm) ∨
    (reply.again = false ∧ token.OpensRaw ∧ reply.next.Raw ∧
      ∃ kind, reply.feedback = .raw kind ∧ kind.isFirst = true)

/-- Modes and flags have no bearing on whether a document is sound. -/
theorem Sound.same (sound : c.Sound) (store_eq : c'.store = c.store) (opened_eq : c'.opened = c.opened)
    (head_eq : c'.head = c.head) (formatting_eq : c'.formatting = c.formatting) : c'.Sound := by
  refine ⟨?_, ?_, ?_, ?_⟩
  · rw [store_eq, opened_eq]
    exact sound.ranked
  · rw [store_eq, opened_eq]
    exact sound.opened
  · rw [store_eq, head_eq]
    exact sound.head
  · rw [store_eq, formatting_eq]
    exact sound.formatting

section Serve

variable (settled : c.Settled)
include settled

theorem Settled.calm : c.Calm := ⟨settled.toSteady, .inl settled.mode⟩

theorem Settled.goTo (settled_mode : mode.isSettled = true) : (c.goTo mode).Settled :=
  ⟨⟨settled.sound.same rfl rfl rfl rfl, settled.templateModes⟩, settled_mode⟩

theorem Settled.leads (leads : c.Leads c') : c'.Settled :=
  ⟨⟨leads.sound, leads.templateModes_eq ▸ settled.templateModes⟩, leads.mode_eq ▸ settled.mode⟩

end Serve

theorem Calm.leads (calm : c.Calm) (leads : c.Leads c') : c'.Calm :=
  ⟨⟨leads.sound, leads.templateModes_eq ▸ calm.templateModes⟩, by
    rw [leads.mode_eq, leads.returnMode_eq]
    exact calm.mode⟩

/-- The token is used up. -/
theorem Calm.served (calm : c'.Calm) (keeps : c.store.Keeps c'.store)
    (carries : ∀ entry ∈ token.marks, c'.store.Carries entry) : Served c token c'.done :=
  ⟨keeps, fun _ => carries, nofun, .inl ⟨rfl, calm⟩⟩

/-- The token is handed on. -/
theorem Calm.handed (calm : c'.Calm) (keeps : c.store.Keeps c'.store)
    (lower : token.isSure = true → c'.mode.height < c.mode.height) :
    Served c token { next := c', again := true } :=
  ⟨keeps, nofun, fun _ => lower, .inl ⟨rfl, calm⟩⟩

/-- What a document serves that comes from another one, the other one serves. -/
theorem Served.after (served : Served c' token reply) (keeps : c.store.Keeps c'.store)
    (mode_eq : c'.mode = c.mode) : Served c token reply :=
  ⟨keeps.trans served.keeps, served.carries, fun again sure => mode_eq ▸ served.lower again sure,
    served.outcome⟩

/-- Flags of the document afterwards have no bearing on whether a token is served. -/
theorem Served.flag (served : Served c token reply) (tableText : List Char) (old : Bool)
    (form : Option Nat) (framesAllowed dropLineFeed fostering : Bool) :
    Served c token { reply with next := { reply.next with
      tableText, old, form, framesAllowed, dropLineFeed, fostering } } := by
  refine ⟨served.keeps, served.carries, served.lower, ?_⟩
  rcases served.outcome with ⟨feedback, calm⟩ | ⟨used, opens, raw, kind⟩
  · exact .inl ⟨feedback, ⟨calm.sound.same rfl rfl rfl rfl, calm.templateModes⟩, calm.mode⟩
  · exact .inr ⟨used, opens, ⟨⟨raw.sound.same rfl rfl rfl rfl, raw.templateModes⟩, raw.mode,
      raw.returnMode, raw.current⟩, kind⟩

theorem Served.ite {p : Prop} [Decidable p] {first second : Reply} (yes : p → Served c token first)
    (no : ¬p → Served c token second) : Served c token (if p then first else second) := by
  split
  · exact yes ‹p›
  · exact no ‹¬p›

theorem Leads.ite {p : Prop} [Decidable p] {first second : Construction} (yes : c.Leads first)
    (no : c.Leads second) : c.Leads (if p then first else second) := by
  split
  · exact yes
  · exact no

/-- The other document comes from the first one and has the attributes. -/
structure Brings (entries : List (String × String)) (c c' : Construction) : Prop
    extends c.Leads c' where
  carries : ∀ entry ∈ entries, c'.store.Carries entry

namespace Brings

theorem next (brings : Brings entries c c') (leads : c'.Leads c'') : Brings entries c c'' :=
  ⟨brings.toLeads.trans leads, fun entry member => leads.keeps.carries (brings.carries entry member)⟩

theorem part (brings : Brings tag.attributes c c') : Brings (Token.startTag tag).marks c c' :=
  ⟨brings.toLeads, fun entry member => brings.carries entry (Token.mem_of_mem_marks member).1⟩

theorem serve (brings : Brings token.marks c c') (calm : c.Calm) : Served c token c'.done :=
  (calm.leads brings.toLeads).served brings.keeps brings.carries

theorem served (brings : Brings token.marks c c') (settled : c.Settled) : Served c token c'.done :=
  brings.serve settled.calm

theorem goTo (brings : Brings token.marks c c') (settled : c.Settled)
    (settled_mode : mode.isSettled = true) : Served c token (c'.goTo mode).done :=
  ((settled.leads brings.toLeads).goTo settled_mode).calm.served brings.keeps brings.carries

end Brings

/-- A token that brings nothing may lead anywhere. -/
theorem Leads.brings (leads : c.Leads c') (unsure : token.isSure = false) :
    Brings token.marks c c' := by
  rw [Token.marks_of_isSure unsure]
  exact ⟨leads, nofun⟩

theorem Leads.retry (leads : c.Leads c') (settled : c.Settled) (settled_mode : mode.isSettled = true)
    (lower : token.isSure = true → mode.height < c.mode.height) :
    Served c token (c'.retry mode) :=
  ((settled.leads leads).goTo settled_mode).calm.handed leads.keeps lower

/-! ## Small steps -/

theorem Leads.flag (leads : c.Leads c') (tableText : List Char) (old : Bool) (form : Option Nat)
    (framesAllowed dropLineFeed fostering : Bool) :
    c.Leads { c' with tableText, old, form, framesAllowed, dropLineFeed, fostering } :=
  ⟨leads.sound.same rfl rfl rfl rfl, leads.keeps, leads.mode_eq, leads.returnMode_eq,
    leads.templateModes_eq⟩

theorem Leads.forbidFrames (leads : c.Leads c') : c.Leads c'.forbidFrames :=
  leads.flag _ _ _ _ _ _

theorem Leads.openTagBrings (leads : c.Leads c') (allowed : tag.name ∉ avoided) :
    Brings tag.attributes c (c'.openTag tag) :=
  ⟨leads.openTag allowed, fun _ member => leads.sound.carries_insertClosed .html tag.name member⟩

theorem Leads.addEmptyBrings (leads : c.Leads c') (tag : Tag) :
    Brings tag.attributes c (c'.addEmpty tag) :=
  ⟨leads.addEmpty tag, fun _ member => leads.sound.carries_insertClosed .html tag.name member⟩

theorem Leads.openFormattingBrings (leads : c.Leads c') (named : tag.name ∈ reopened) :
    Brings tag.attributes c (c'.openFormatting tag) :=
  ⟨(leads.openFormatting named).1, (leads.openFormatting named).2⟩

/-! ## Fitting modes -/

theorem Steady.fittingMode (steady : c.Steady) {nodes : List Nat} (part : nodes ⊆ c.opened) :
    (c.fittingMode nodes).isSettled = true := by
  induction nodes with
  | nil => rfl
  | cons node rest induction =>
      have behind := induction fun n inside => part (List.mem_cons_of_mem _ inside)
      obtain ⟨⟨vocabulary, name⟩, element, allowed⟩ :=
        steady.sound.opened node (part List.mem_cons_self)
      rw [Construction.fittingMode, nameOf_eq element]
      cases vocabulary with
      | svg | mathml => exact behind
      | html =>
          have others := allowed rfl
          simp only [avoided, List.mem_cons, List.not_mem_nil, or_false, not_or] at others
          obtain ⟨select, frameset, -, colgroup⟩ := others
          simp only [select, frameset, colgroup, if_false]
          have inner : (c.templateModes.headD .inBody).isSettled = true := by
            cases modes_eq : c.templateModes with
            | nil => rfl
            | cons first others => exact steady.templateModes first (modes_eq ▸ List.mem_cons_self)
          exact isSettled_ite rfl <| isSettled_ite rfl <| isSettled_ite rfl <| isSettled_ite rfl <|
            isSettled_ite rfl <| isSettled_ite inner <| isSettled_ite rfl <| isSettled_ite rfl <|
            isSettled_ite (isSettled_ite rfl rfl) behind

theorem Steady.fitMode (steady : c.Steady) : c.fitMode.Settled :=
  ⟨⟨steady.sound.same rfl rfl rfl rfl, steady.templateModes⟩,
    steady.fittingMode (List.Subset.refl _)⟩

theorem Settled.closeTemplate (settled : c.Settled) :
    c.closeTemplate.Settled ∧ c.store.Keeps c.closeTemplate.store := by
  unfold Construction.closeTemplate
  split
  · have leads := (((Leads.refl settled.sound).closeImplied thoroughlyImpliedEnds).popNamed
      "template").clearFormatting
    refine ⟨Steady.fitMode ⟨leads.sound.same rfl rfl rfl rfl, fun mode member => ?_⟩, leads.keeps⟩
    exact settled.templateModes mode (List.mem_of_mem_tail member)
  · exact ⟨settled, .refl _⟩

theorem Settled.servedCloseTemplate (settled : c.Settled) (unsure : token.isSure = false) :
    Served c token c.closeTemplate.done := by
  refine settled.closeTemplate.1.calm.served settled.closeTemplate.2 ?_
  rw [Token.marks_of_isSure unsure]
  nofun

theorem Settled.endTemplate (settled : c.Settled) (unsure : token.isSure = false) :
    Served c token c.endTemplate := by
  unfold Construction.endTemplate
  split
  · have leads := ((Leads.refl settled.sound).popNamed "template").clearFormatting
    have fitted := Steady.fitMode (c := { (c.popNamed "template").clearFormatting with
      templateModes := c.templateModes.tail }) ⟨leads.sound.same rfl rfl rfl rfl,
        fun mode member => settled.templateModes mode (List.mem_of_mem_tail member)⟩
    refine fitted.calm.handed leads.keeps fun sure => ?_
    rw [unsure] at sure
    cases sure
  · exact ((Leads.refl settled.sound).brings unsure).served settled

/-! ## The head -/

/-- A new element is opened, and the text inside is read as text alone. -/
theorem Brings.raw (brings : Brings tag.attributes c c') (settled : c.Settled)
    (raw : tag.name ∈ rawNames) (element : c'.store.element? c'.current = some (.html, tag.name))
    {kind : RawKind} (first : kind.isFirst = true) :
    Served c (.startTag tag)
      { next := { c' with returnMode := c'.mode, mode := .text }, feedback := .raw kind } := by
  have settled' := settled.leads brings.toLeads
  refine ⟨brings.keeps, fun _ => brings.part.carries, nofun, .inr ⟨rfl, raw, ?_, kind, rfl, first⟩⟩
  exact ⟨⟨settled'.sound.same rfl rfl rfl rfl, settled'.templateModes⟩, rfl, settled'.mode, _,
    element⟩

theorem Leads.openRaw (leads : c.Leads c') (settled : c.Settled) (raw : tag.name ∈ rawNames)
    {kind : RawKind} (first : kind.isFirst = true) :
    Served c (.startTag tag) (c'.openRaw tag kind) :=
  (leads.openTagBrings (not_avoided_of_rawNames raw)).raw settled raw
    (element_insertOpen leads.sound .html tag.name tag.attributes).2 first

/-- A template is opened. -/
theorem Brings.template (brings : Brings token.marks c c') (settled : c.Settled) :
    Served c token
      { c' with mode := .inTemplate, templateModes := .inTemplate :: c'.templateModes }.done := by
  have settled' := settled.leads brings.toLeads
  refine Calm.served ⟨⟨settled'.sound.same rfl rfl rfl rfl, ?_⟩, .inl rfl⟩ brings.keeps brings.carries
  exact List.forall_mem_cons.mpr ⟨rfl, settled'.templateModes⟩

/-- The tags that stand in the head: they have no content, or text alone, or they are templates. -/
theorem headTag_induction {motive : Reply → Prop} (empty : motive (c.addEmpty tag).done)
    (text : ∀ kind : RawKind, kind.isFirst = true → tag.name ∈ rawNames →
      motive (c.openRaw tag kind))
    (template : motive { (c.openTag tag).mark.forbidFrames with
      mode := .inTemplate
      templateModes := .inTemplate :: (c.openTag tag).mark.forbidFrames.templateModes }.done) :
    motive (c.headTag tag) := by
  unfold headTag
  refine iteInduction (fun _ => empty) fun _ => iteInduction ?title fun _ =>
    iteInduction ?plain fun _ => iteInduction ?script fun _ => template
  case title => exact fun title => text _ rfl (by rw [title]; decide)
  case plain =>
    intro plain
    have listed : ∀ name ∈ ["noframes", "style", "noscript"], name ∈ rawNames := by decide
    exact text _ rfl (listed _ (List.contains_iff_mem.mp plain))
  case script => exact fun script => text _ rfl (by rw [script]; decide)

theorem Settled.headTag (settled : c.Settled) (allowed : tag.name ∉ avoided) :
    Served c (.startTag tag) (c.headTag tag) := by
  have start := Leads.refl settled.sound
  apply headTag_induction
  case empty => exact (start.addEmptyBrings tag).part.served settled
  case text => exact fun kind first raw => start.openRaw settled raw first
  case template =>
    have opened := (start.openTagBrings allowed).part
    exact (opened.next (Leads.refl opened.sound).mark.forbidFrames).template settled

theorem Leads.mergeRoot (leads : c.Leads c') (tag : Tag) : c.Leads (c'.mergeRoot tag) := by
  unfold Construction.mergeRoot
  split
  · exact leads
  · exact leads.addAttributes _ _

theorem Settled.inHead (settled : c.Settled) (mode_eq : c.mode = .inHead) (plain : token.Plain) :
    Served c token (c.inHead token) := by
  have start := Leads.refl settled.sound
  have leave : Served c token (c.pop.retry .afterHead) :=
    start.pop.retry settled rfl fun _ => by rw [mode_eq]; decide
  unfold Construction.inHead
  cases token with
  | comment text => exact plain.elim
  | character char =>
      exact .ite (fun _ => ((start.addChar char).brings rfl).served settled) fun _ => leave
  | startTag tag =>
      have allowed : tag.name ∉ avoided := fun member => plain (List.mem_cons_of_mem _ member)
      refine .ite ?root fun _ => .ite ?head fun _ => .ite ?again fun _ => leave
      case root =>
        intro root
        exact ((start.mergeRoot tag).brings
          (Token.isSure_of_contextual (by rw [root]; decide))).served settled
      case head => exact fun _ => settled.headTag allowed
      case again =>
        intro again
        exact (start.brings (Token.isSure_of_contextual (by rw [again]; decide))).served settled
  | endTag tag =>
      refine .ite ?head fun _ => .ite (fun _ => leave) fun _ => .ite ?template fun _ => ?other
      case head => exact fun _ => (start.pop.brings rfl).goTo settled rfl
      case template => exact fun _ => settled.servedCloseTemplate rfl
      case other => exact (start.brings rfl).served settled
  | _ => exact leave

/-! ## After the head -/

/-- The head is an element that holds what is put into it. -/
theorem Sound.isHost_head (sound : c.Sound) : c.store.IsHost (c.head.getD 0) ∧
    c.isOneOf tableStructure (c.head.getD 0) = false := by
  obtain ⟨rank, graded, -⟩ := sound.ranked
  cases head_eq : c.head with
  | none =>
      refine ⟨graded.host_zero, Bool.eq_false_iff.mpr fun found => ?_⟩
      obtain ⟨name, member, named⟩ := isOneOf_iff.mp found
      have solid : name ≠ "" := by
        rintro rfl
        revert member
        decide
      exact Bool.eq_false_iff.mp (isNamed_zero graded solid) (isNamed_iff.mpr named)
  | some head =>
      have element := sound.head head head_eq
      have found : (c.store.element? head).isSome = true := by
        rw [element]
        rfl
      refine ⟨⟨Store.lt_of_element found, .inr found⟩, ?_⟩
      rw [isOneOf, Option.getD_some, nameOf_eq element]
      rfl

/-- An element is put into the head, wherever the head stands. -/
theorem Sound.inserts_head (sound : c.Sound) (name : String) (attributes : List (String × String)) :
    Inserts c.store (.html, name) attributes
      ((c.push (c.head.getD 0)).insertClosed .html name attributes).1
      ((c.push (c.head.getD 0)).insertClosed .html name attributes).2.store := by
  obtain ⟨host, ordinary⟩ := sound.isHost_head
  generalize c.head.getD 0 = head at *
  have added := c.store.added_addElement .html name attributes
  let created : Construction := { c with store := (c.store.addElement .html name attributes).2 }
  have place_eq : (created.push head).placeIn head = .inside (created.holder head) := by
    have same : (created.push head).isOneOf tableStructure head = false := by
      have element_eq := added.element_old host.1
      rw [isOneOf, nameOf] at ordinary ⊢
      rw [show (created.push head).store.element? head = _ from element_eq]
      exact ordinary
    rw [placeIn, same, Bool.and_false]
    rfl
  have inserts := inserts_put sound.isOpen (create_eq c .html name attributes)
    (.inside (created.holder head)) fun rank bound _ _ above =>
      ⟨head, ⟨added.host_old host, holder_eq created head⟩, above head (.inr (.inr host))⟩
  rw [insertClosed, create_eq]
  show Inserts c.store _ attributes (c.store.addElement .html name attributes).1
    ((created.push head).put ((created.push head).placeIn head) _).store
  rw [place_eq]
  exact inserts

theorem openTag_eq (c : Construction) (tag : Tag) :
    c.openTag tag = { c with
      store := (c.insertClosed .html tag.name tag.attributes).2.store
      opened := (c.insertClosed .html tag.name tag.attributes).1 :: c.opened } := by
  rw [openTag, insertOpen]
  dsimp only
  rw [insertClosed_eq]
  rfl

/-- A tag of the head that comes after the head is put into the head all the same. -/
theorem Settled.headTagAfter (settled : c.Settled) (allowed : tag.name ∉ avoided) :
    Served c (.startTag tag) { (c.push (c.head.getD 0)).headTag tag with
      next := ((c.push (c.head.getD 0)).headTag tag).next.close (c.head.getD 0) } := by
  have sound := settled.sound
  have start := Leads.refl sound
  have inserts := sound.inserts_head tag.name tag.attributes
  have opened_eq := openTag_eq (c.push (c.head.getD 0)) tag
  have empty_eq := insertClosed_eq (c.push (c.head.getD 0)) .html tag.name tag.attributes
  have inside := sound.isHost_head.1.1
  generalize c.head.getD 0 = head at *
  generalize ((c.push head).insertClosed .html tag.name tag.attributes).1 = node at *
  obtain ⟨keeps, element, carries⟩ := sound.inserted inserts
  have other : ¬(node == head) = true := by
    obtain ⟨rank, graded, -⟩ := sound.ranked
    obtain ⟨rank', inserted⟩ := inserts rank graded
    intro same
    have above := inserted.above head inside
    rw [beq_iff_eq.mp same, inserted.old head inside] at above
    exact lt_irrefl _ above
  have closed : (((c.push head).openTag tag).close head) = { c with
      store := ((c.push head).insertClosed .html tag.name tag.attributes).2.store
      opened := node :: c.opened } := by
    rw [opened_eq]
    simp [Construction.close, push, other]
  have entered : Brings tag.attributes c (((c.push head).openTag tag).close head) := by
    rw [closed]
    exact ⟨start.enter inserts fun _ => allowed, carries⟩
  refine headTag_induction (motive := fun reply => Served c (.startTag tag)
    { reply with next := reply.next.close head }) ?empty ?text ?template
  case empty =>
    have empty : ((c.push head).addEmpty tag).close head =
        { c with store := ((c.push head).insertClosed .html tag.name tag.attributes).2.store } := by
      rw [addEmpty, empty_eq]
      simp [Construction.close, push]
    have brings : Brings tag.attributes c (((c.push head).addEmpty tag).close head) := by
      rw [empty]
      exact ⟨start.stay inserts, carries⟩
    exact brings.part.served settled
  case text =>
    intro kind first raw
    refine entered.raw settled raw ?_ first
    rw [closed]
    exact element
  case template =>
    have marked := entered.part.next (Leads.refl entered.sound).mark.forbidFrames
    exact marked.template settled

theorem Settled.afterHead (settled : c.Settled) (mode_eq : c.mode = .afterHead)
    (plain : token.Plain) : Served c token (c.afterHead token) := by
  have start := Leads.refl settled.sound
  have leave : Served c token ((c.openNamed "body").retry .inBody) :=
    (start.openNamed (by decide)).retry settled rfl fun _ => by rw [mode_eq]; decide
  unfold Construction.afterHead
  cases token with
  | comment text => exact plain.elim
  | character char =>
      exact .ite (fun _ => ((start.addChar char).brings rfl).served settled) fun _ => leave
  | startTag tag =>
      have allowed : tag.name ∉ avoided := fun member => plain (List.mem_cons_of_mem _ member)
      have unsure {name : String} (known : name ∈ contextual) (named : tag.name = name) :
          (Token.startTag tag).isSure = false := Token.isSure_of_contextual (named ▸ known)
      refine .ite ?root fun _ => .ite ?body fun _ => .ite ?frames fun _ => .ite ?head fun _ =>
        .ite ?again fun _ => leave
      case root =>
        exact fun root => ((start.mergeRoot tag).brings (unsure (by decide) root)).served settled
      case body =>
        intro body
        exact ((start.openTag allowed).forbidFrames.brings (unsure (by decide) body)).goTo settled rfl
      case frames => exact fun frames => (allowed (frames ▸ by decide)).elim
      case head => exact fun _ => settled.headTagAfter allowed
      case again => exact fun again => (start.brings (unsure (by decide) again)).served settled
  | endTag tag =>
      refine .ite ?template fun _ => .ite (fun _ => leave) fun _ => ?other
      case template => exact fun _ => settled.servedCloseTemplate rfl
      case other => exact (start.brings rfl).served settled
  | _ => exact leave

/-! ## Before the head -/

theorem Settled.atStart (settled : c.Settled) (mode_eq : c.mode = .initial) (plain : token.Plain) :
    Served c token (c.atStart token) := by
  have start := Leads.refl settled.sound
  have leave : Served c token ({ c with old := true }.retry .beforeHtml) :=
    (start.flag _ _ _ _ _ _).retry settled rfl fun _ => by rw [mode_eq]; decide
  unfold Construction.atStart
  cases token with
  | comment text => exact plain.elim
  | character char => exact .ite (fun _ => (start.brings rfl).served settled) fun _ => leave
  | _ => exact leave

theorem Settled.beforeHtml (settled : c.Settled) (mode_eq : c.mode = .beforeHtml)
    (plain : token.Plain) : Served c token (c.beforeHtml token) := by
  have start := Leads.refl settled.sound
  have leave : Served c token ((c.openRoot []).retry .beforeHead) :=
    (start.openRoot _).retry settled rfl fun _ => by rw [mode_eq]; decide
  unfold Construction.beforeHtml
  cases token with
  | comment text => exact plain.elim
  | character char => exact .ite (fun _ => (start.brings rfl).served settled) fun _ => leave
  | startTag tag =>
      refine .ite (fun root => ?_) fun _ => leave
      exact ((start.openRoot _).brings
        (Token.isSure_of_contextual (by rw [root]; decide))).goTo settled rfl
  | endTag tag => exact .ite (fun _ => leave) fun _ => (start.brings rfl).served settled
  | _ => exact leave

/-- The head is opened. -/
theorem Leads.openHead (leads : c.Leads c') (named : tag.name = "head") :
    c.Leads { c'.openTag tag with head := some (c'.openTag tag).current } := by
  have opened : c.Leads (c'.openTag tag) := leads.openTag (by rw [named]; decide)
  have element : (c'.openTag tag).store.element? (c'.openTag tag).current = some (.html, "head") :=
    named ▸ (element_insertOpen leads.sound .html tag.name tag.attributes).2
  refine ⟨⟨opened.sound.ranked, opened.sound.opened, ?_, opened.sound.formatting⟩, opened.keeps,
    opened.mode_eq, opened.returnMode_eq, opened.templateModes_eq⟩
  rintro node ⟨rfl⟩
  exact element

theorem Settled.beforeHead (settled : c.Settled) (mode_eq : c.mode = .beforeHead)
    (plain : token.Plain) : Served c token (c.beforeHead token) := by
  have start := Leads.refl settled.sound
  have leave : Served c token ({ c.openTag ⟨"head", [], false⟩ with
      head := some (c.openTag ⟨"head", [], false⟩).current }.retry .inHead) :=
    (start.openHead rfl).retry settled rfl fun _ => by rw [mode_eq]; decide
  unfold Construction.beforeHead
  cases token with
  | comment text => exact plain.elim
  | character char => exact .ite (fun _ => (start.brings rfl).served settled) fun _ => leave
  | startTag tag =>
      refine .ite ?root fun _ => .ite ?head fun _ => leave
      case root =>
        intro root
        exact ((start.mergeRoot tag).brings
          (Token.isSure_of_contextual (by rw [root]; decide))).served settled
      case head =>
        intro head
        exact ((start.openHead head).brings
          (Token.isSure_of_contextual (by rw [head]; decide))).goTo settled rfl
  | endTag tag => exact .ite (fun _ => leave) fun _ => (start.brings rfl).served settled
  | _ => exact leave

end Construction
end Markup
end ReactiveTemplate
