import ReactiveTemplate.Proofs.Markup.Document
import ReactiveTemplate.Proofs.Markup.Tables

/-!
# Documents that take all tokens

A token is taken by the rules of one mode after the other, among foreign elements by rules of their
own.  A tag that no rule passes over is handed on at most six times, so that the rounds suffice.  From
the empty document on, every attribute that a token brings is therefore one of the finished document.
-/

namespace ReactiveTemplate
namespace Markup
namespace Construction

variable {c c' : Construction} {token : Token} {tag : Tag}

/-! ## Foreign elements -/

theorem Calm.breakOut (calm : c.Calm) (plain : token.Plain) :
    Served c token (c.breakOut token) := by
  unfold Construction.breakOut
  dsimp only
  generalize opened_eq : c.opened.dropWhile _ = opened
  have closed : c.Leads { c with opened } :=
    (Leads.refl calm.sound).shrink (opened_eq ▸ List.dropWhile_sublist _)
  exact ((calm.leads closed).byMode plain).after (.refl _) rfl

theorem Calm.foreignStart (calm : c.Calm) (plain : (Token.startTag tag).Plain) :
    Served c (.startTag tag) (c.foreignStart tag) := by
  have allowed : tag.name ∉ avoided := fun member => plain (List.mem_cons_of_mem _ member)
  refine .ite (fun _ => calm.breakOut plain) fun _ => ?_
  refine ((Leads.refl calm.sound).openForeignBrings fun ordinary => ?_).serve calm
  rw [ordinary]
  exact allowed

theorem Calm.foreignEnd (calm : c.Calm) {nodes : List Nat} (part : nodes.Sublist c.opened)
    (first : Bool) : Served c (.endTag tag) (c.foreignEnd tag first nodes) := by
  have start := Leads.refl calm.sound
  induction nodes generalizing first with
  | nil => exact (start.brings rfl).serve calm
  | cons node rest induction =>
      have behind := (List.sublist_cons_self node rest).trans part
      cases rest with
      | nil => exact (start.brings rfl).serve calm
      | cons second others =>
          rw [Construction.foreignEnd]
          · exact .ite (fun _ => calm.byMode trivial) fun _ =>
              .ite (fun _ => ((start.shrink behind).brings rfl).serve calm) fun _ =>
                induction behind false
          · exact List.cons_ne_nil second others

theorem Calm.inForeign (calm : c.Calm) (plain : token.Plain) :
    Served c token (c.inForeign token) := by
  have start := Leads.refl calm.sound
  unfold Construction.inForeign
  cases token with
  | null => exact ((start.addChar replacementChar).brings rfl).serve calm
  | character char =>
      exact ((Leads.addChar (.ite start start.forbidFrames) char).brings rfl).serve calm
  | comment text => exact plain.elim
  | startTag tag => exact calm.foreignStart plain
  | endTag tag =>
      exact .ite (fun _ => calm.breakOut plain) fun _ => calm.foreignEnd (List.Sublist.refl _) true
  | _ => exact (start.brings rfl).serve calm

/-! ## Rounds -/

/-- A token has been taken and nothing is lost: tags find a place in the document, or an element has
been opened that holds text. -/
structure Taken (c : Construction) (token : Token) (result : Construction × Feedback) : Prop where
  keeps : c.store.Keeps result.1.store
  outcome : (result.2 = .proceed ∧ result.1.Calm) ∨
    (token.OpensRaw ∧ result.1.Raw ∧ ∃ kind, result.2 = .raw kind ∧ kind.isFirst = true)

theorem Calm.takeRounds (calm : c.Calm) (plain : token.Plain) (rounds : Nat) :
    Taken c token (c.takeRounds token rounds) ∧ (c.mode.height < rounds →
      ∀ entry ∈ token.marks, (c.takeRounds token rounds).1.store.Carries entry) := by
  induction rounds generalizing c with
  | zero => exact ⟨⟨.refl _, .inl ⟨rfl, calm⟩⟩, fun enough => (Nat.not_lt_zero _ enough).elim⟩
  | succ rounds induction =>
      have served : Served c token
          (if c.meetsForeign token then c.inForeign token else c.byMode token) :=
        .ite (fun _ => calm.inForeign plain) fun _ => calm.byMode plain
      rw [Construction.takeRounds]
      generalize (if c.meetsForeign token then c.inForeign token else c.byMode token) = reply at *
      cases again : reply.again with
      | false =>
          rw [if_neg Bool.false_ne_true]
          exact ⟨⟨served.keeps, served.outcome.imp_right fun raw => raw.2⟩,
            fun _ => served.carries again⟩
      | true =>
          have next_calm : reply.next.Calm := by
            rcases served.outcome with proceeds | raw
            · exact proceeds.2
            · rw [raw.1] at again
              cases again
          obtain ⟨taken, carries⟩ := induction next_calm
          rw [if_pos rfl]
          refine ⟨⟨served.keeps.trans taken.keeps, taken.outcome⟩, fun enough => ?_⟩
          by_cases sure : token.isSure = true
          · have lower := served.lower again sure
            exact carries (by omega)
          · rw [Token.marks_of_isSure (Bool.eq_false_iff.mpr sure)]
            exact List.forall_mem_nil _

theorem Mode.height_le (mode : Mode) : mode.height ≤ 6 := by
  cases mode <;> decide

/-- The document type is put into the document. -/
theorem Calm.takeDoctype (calm : c.Calm) (doctype : Doctype) :
    Taken c (.doctype doctype) (c.take (.doctype doctype)) := by
  have flagged : c.Leads { c with dropLineFeed := false } :=
    (Leads.refl calm.sound).flag _ _ _ _ _ _
  unfold Construction.take
  dsimp only
  split
  · let content : Content := .doctype (doctype.name.getD "") (doctype.publicId.getD "")
      (doctype.systemId.getD "")
    let store := (c.store.add content).2.append 0 c.store.entries.size
    have room : c.store.entries.size < (c.store.add content).2.entries.size := by
      rw [Store.size_add]
      omega
    have placed : (c.store.add content).2.Placed 0 c.store.entries.size store :=
      Store.placed_append (by omega) room
    have keeps : c.store.Keeps store := (Store.Keeps.add _ _).trans (Store.Keeps.placed placed)
    have sound : { c with store }.Sound := calm.sound.restore keeps fun rank graded => by
      have plain := holder_eq_self graded (isNamed_zero graded (by decide))
      exact graded.addLeaf graded.host_zero rfl rfl (by rwa [plain])
    exact ⟨keeps, .inl ⟨rfl, ⟨sound.same rfl rfl rfl rfl, calm.templateModes⟩, .inl rfl⟩⟩
  · exact ⟨.refl _, .inl ⟨rfl, calm.leads flagged⟩⟩

/-- A token is taken, and what it brings is in the document. -/
theorem Calm.take (calm : c.Calm) (plain : token.Plain) :
    Taken c token (c.take token) ∧ ∀ entry ∈ token.marks, (c.take token).1.store.Carries entry := by
  have calm' : Construction.Calm { c with dropLineFeed := false } :=
    calm.leads ((Leads.refl calm.sound).flag _ _ _ _ _ _)
  have enough : c.mode.height < c.rounds := by
    have bound := Mode.height_le c.mode
    unfold Construction.rounds
    omega
  obtain ⟨taken, carries⟩ := calm'.takeRounds plain c.rounds
  have result : Taken c token _ := ⟨taken.keeps, taken.outcome⟩
  unfold Construction.take
  dsimp only
  split
  · exact ⟨calm.takeDoctype _, nofun⟩
  · refine ⟨?_, nofun⟩
    split
    · exact ⟨.refl _, .inl ⟨rfl, calm'⟩⟩
    · exact result
  · exact ⟨result, carries enough⟩

/-- What brings nothing and opens nothing leaves the document calm. -/
theorem Calm.takeOther (calm : c.Calm) (plain : token.Plain) (other : ¬token.OpensRaw) :
    ∃ next, c.take token = (next, .proceed) ∧ next.Calm ∧ c.store.Keeps next.store := by
  obtain ⟨taken, -⟩ := calm.take plain
  obtain ⟨proceeds, calm'⟩ := taken.outcome.resolve_right fun raw => other raw.1
  refine ⟨(c.take token).1, ?_, calm', taken.keeps⟩
  rw [← proceeds]

/-! ## Elements that hold text -/

theorem current_addChar (c : Construction) (char : Char) :
    (c.addChar char).current = c.current := by
  rw [addChar_eq]
  rfl

section Raw

variable (raw : c.Raw)
include raw

theorem Raw.leads (leads : c.Leads c') (current_eq : c'.current = c.current) : c'.Raw := by
  obtain ⟨name, element⟩ := raw.current
  refine ⟨⟨leads.sound, leads.templateModes_eq ▸ raw.templateModes⟩, leads.mode_eq.trans raw.mode,
    leads.returnMode_eq ▸ raw.returnMode, name, ?_⟩
  rw [current_eq]
  exact leads.keeps.element? element

theorem Raw.takeRounds (rounds : Nat) (used : (c.inText token).again = false) :
    c.takeRounds token (rounds + 1) = ((c.inText token).next, (c.inText token).feedback) := by
  obtain ⟨name, element⟩ := raw.current
  have home : c.meetsForeign token = false :=
    meetsForeign_of_html (by rw [nameOf_eq element]) token
  have rules : c.byMode token = c.inText token := by
    rw [Construction.byMode, raw.mode]
  rw [Construction.takeRounds]
  simp only [home, rules, used, Bool.false_eq_true, if_false]

/-- Characters are put into the element. -/
theorem Raw.takeText (isText : token.isText = true) :
    ∃ next, c.take token = (next, .proceed) ∧ next.Raw ∧ c.store.Keeps next.store := by
  have flagged : c.Leads { c with dropLineFeed := false } :=
    (Leads.refl raw.sound).flag _ _ _ _ _ _
  have raw' : Construction.Raw { c with dropLineFeed := false } := raw.leads flagged rfl
  have rounds : ∃ next, Construction.takeRounds { c with dropLineFeed := false } token c.rounds =
      (next, .proceed) ∧ next.Raw ∧ c.store.Keeps next.store := by
    obtain ⟨below, rounds_eq⟩ : ∃ below, c.rounds = below + 1 :=
      Nat.exists_eq_add_one.mpr (by unfold Construction.rounds; omega)
    rw [rounds_eq]
    cases token with
    | character char =>
        have leads := flagged.addChar char
        exact ⟨_, raw'.takeRounds below rfl, raw.leads leads (current_addChar _ char), leads.keeps⟩
    | null => exact ⟨_, raw'.takeRounds below rfl, raw', .refl _⟩
    | _ => cases isText
  unfold Construction.take
  dsimp only
  split
  · cases isText
  · split
    · exact ⟨_, rfl, raw', .refl _⟩
    · exact rounds
  · exact rounds

/-- A closing tag ends the text. -/
theorem Raw.takeEnd (tag : Tag) :
    ∃ next, c.take (.endTag tag) = (next, .proceed) ∧ next.Calm ∧ c.store.Keeps next.store := by
  have flagged : c.Leads { c with dropLineFeed := false } :=
    (Leads.refl raw.sound).flag _ _ _ _ _ _
  have raw' : Construction.Raw { c with dropLineFeed := false } := raw.leads flagged rfl
  have leads := flagged.pop
  refine ⟨(Construction.inText { c with dropLineFeed := false } (.endTag tag)).next, ?_, ?_,
    leads.keeps⟩
  · obtain ⟨below, rounds_eq⟩ : ∃ below,
        Construction.rounds { c with dropLineFeed := false } = below + 1 :=
      Nat.exists_eq_add_one.mpr (by unfold Construction.rounds; omega)
    unfold Construction.take
    dsimp only
    rw [rounds_eq]
    exact raw'.takeRounds below rfl
  · exact ⟨⟨leads.sound.same rfl rfl rfl rfl, leads.templateModes_eq ▸ raw.templateModes⟩,
      .inl raw.returnMode⟩

end Raw

/-! ## The empty document -/

theorem graded_empty : ({} : Store).Graded (fun _ => False) fun _ => 0 := by
  have only {n : Nat} (shown : ({} : Store).IsShown n) : n = 0 := Nat.lt_one_iff.mp shown.1
  have childless {a n : Nat} (shown : ({} : Store).IsShown a) : n ∉ ({} : Store).inside a := by
    rw [only shown]
    exact List.not_mem_nil
  refine ⟨⟨Nat.one_pos, rfl⟩, ?_, ?_, ?_, ?_, ?_, ?_, ?_⟩
  · exact fun a shown n member => (childless shown member).elim
  · exact fun a shown n member => (childless shown member).elim
  · exact fun n shown other => (other (only shown)).elim
  · exact fun n shown other => (other (only shown)).elim
  · intro a shown
    rw [only shown]
    exact Nat.one_pos
  · exact fun a b first second _ => (only first).trans (only second).symm
  · intro a contents
    by_cases document : a = 0
    · rw [document] at contents
      exact (contents rfl).elim
    · rw [Store.get_of_le (Nat.one_le_iff_ne_zero.mpr document)] at contents
      exact (contents rfl).elim

theorem calm_empty : ({} : Construction).Calm :=
  ⟨⟨⟨⟨fun _ => 0, graded_empty, List.Pairwise.nil⟩, nofun, nofun, nofun⟩, nofun⟩, .inl rfl⟩

end Construction
end Markup
end ReactiveTemplate
