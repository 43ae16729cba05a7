import Mathlib.Algebra.Order.Field.Basic
import Mathlib.Data.Finset.Order
import ReactiveTemplate.Markup.Construction
import ReactiveTemplate.Proofs.Markup.Store

/-!
# Documents that stay whole

While a document is built, elements are opened, closed, copied and moved, and none is lost.  The
document is sound between two operations: its store is graded in such a way that the open elements
have falling ranks from the innermost one outwards, so that whatever is put into an open element has
a higher rank than it.  Every operation keeps this, the one that splits a formatting element around
a block included: the copies get ranks between those of the elements they come to stand between.
-/

namespace ReactiveTemplate
namespace Markup

/-- Names that no open element has: lists of options, sets of frames and groups of columns are left
out, for in them most tags are passed over. -/
def avoided : List String := ["select", "frameset", "col", "colgroup"]

/-- Elements that may be opened again after an element that closed them. -/
def reopened : List String := "a" :: "nobr" :: formattingElements

theorem not_avoided_of_reopened {name : String} (member : name ∈ reopened) : name ∉ avoided := by
  revert name
  decide

theorem ne_of_reopened {name : String} (member : name ∈ reopened) :
    name ≠ "template" ∧ name ≠ "table" := by
  revert name
  decide

namespace Store

variable {store store' : Store} {loose : Nat → Prop} {rank : Nat → ℚ} {node a : Nat}

/-- There is room above all ranks. -/
theorem exists_above (store : Store) (rank : Nat → ℚ) :
    ∃ level : ℚ, ∀ n, n < store.entries.size → rank n < level := by
  obtain ⟨highest, bound⟩ := ((Finset.range store.entries.size).image rank).exists_le
  refine ⟨highest + 1, fun n inside => ?_⟩
  have below := bound (rank n) (Finset.mem_image_of_mem rank (Finset.mem_range.mpr inside))
  exact lt_of_le_of_lt below (lt_add_one highest)

/-- There is room between a rank and those of finitely many higher nodes. -/
theorem exists_below (low : ℚ) {nodes : List Nat} (higher : ∀ n ∈ nodes, low < rank n) :
    ∃ level, low < level ∧ ∀ n ∈ nodes, level < rank n := by
  induction nodes with
  | nil => exact ⟨low + 1, lt_add_one low, by simp⟩
  | cons first rest induction =>
      rw [List.forall_mem_cons] at higher
      obtain ⟨level, above, below⟩ := induction higher.2
      obtain ⟨lower, lower_above, lower_below⟩ := exists_between (lt_min above higher.1)
      refine ⟨lower, lower_above, ?_⟩
      rw [List.forall_mem_cons]
      exact ⟨lower_below.trans_le (min_le_right _ _),
        fun n member => (lower_below.trans_le (min_le_left _ _)).trans (below n member)⟩

/-- A node without contents of its own that is put into a node. -/
theorem Graded.addLeaf (graded : store.Graded loose rank) (host : store.IsHost a) {content : Content}
    (closed : content.contents? = none) (solid : content.isRoot = false)
    (placed : (store.add content).2.Placed (store.holder a) store.entries.size store') :
    ∃ rank' : Nat → ℚ, (∀ n, n < store.entries.size → rank' n = rank n) ∧
      store'.Graded loose rank' := by
  obtain ⟨level, above⟩ := store.exists_above rank
  have added := graded.add content (above 0 graded.origin.1) (by rw [closed]; nofun)
  have old {n : Nat} (inside : n < store.entries.size) :
      Function.update rank store.entries.size level n = rank n :=
    Function.update_of_ne inside.ne level rank
  have get_old : (store.add content).2.get a = store.get a := by
    rw [get_add, if_neg host.1.ne]
  have host' : (store.add content).2.IsHost a := by
    rw [IsHost, size_add, element?, get_old, ← element?]
    exact ⟨Nat.lt_succ_of_lt host.1, host.2⟩
  have holder_eq : (store.add content).2.holder a = store.holder a := by
    rw [holder, get_old, ← holder]
  have shown : (store.add content).2.IsShown store.entries.size := by
    refine ⟨by rw [size_add]; omega, .inr ?_⟩
    rw [get_add, if_pos rfl]
    exact solid
  have moved := added.move host' shown
    (by rw [old host.1, Function.update_self]; exact above a host.1) (by rwa [holder_eq])
  exact ⟨_, fun n inside => old inside, moved.weaken fun n _ free => free.1.resolve_right free.2⟩

/-- An attribute of an element of the store. -/
def Carries (store : Store) (entry : String × String) : Prop :=
  ∃ n vocabulary name attributes contents,
    (store.get n).content = .element vocabulary name attributes contents ∧ entry ∈ attributes

theorem Keeps.carries (keeps : store.Keeps store') {entry : String × String}
    (carries : store.Carries entry) : store'.Carries entry := by
  obtain ⟨n, vocabulary, name, attributes, contents, content_eq, member⟩ := carries
  obtain ⟨attributes', content_eq', part⟩ := keeps n _ _ _ _ content_eq
  exact ⟨n, vocabulary, name, attributes', contents, content_eq', part member⟩

theorem appendChar_cases (store : Store) (place : Nat) (char : Char) :
    (∃ text, store.appendChar place char = store.pushChar text char) ∨
      store.appendChar place char =
        (store.add (.text [char])).2.append place store.entries.size := by
  unfold appendChar
  split
  · split
    · exact .inl ⟨_, rfl⟩
    · exact .inr rfl
  · exact .inr rfl

theorem insertCharBefore_cases {sibling place : Nat} (char : Char)
    (child : (store.get sibling).parent = some place) :
    (∃ text, store.insertCharBefore sibling char = store.pushChar text char) ∨
      store.insertCharBefore sibling char =
        (store.add (.text [char])).2.insertBefore sibling store.entries.size := by
  unfold insertCharBefore
  rw [child]
  dsimp only
  split
  · split
    · exact .inl ⟨_, rfl⟩
    · exact .inr rfl
  · exact .inr rfl

end Store

namespace Construction

variable {c c' : Construction} {loose : Nat → Prop} {rank : Nat → ℚ}
  {names : List String} {name : String} {n a node target : Nat} {place : Place}

/-! ## Names -/

theorem isOneOf_iff : c.isOneOf names n = true ↔ ∃ name ∈ names, c.nameOf n = (.html, name) := by
  unfold isOneOf
  obtain ⟨vocabulary, name⟩ := c.nameOf n
  simp [and_comm]

theorem isNamed_iff : c.isNamed name n = true ↔ c.nameOf n = (.html, name) := by
  simp [isNamed, isOneOf_iff]

theorem nameOf_eq {kind : Vocabulary × String} (element : c.store.element? n = some kind) :
    c.nameOf n = kind := by
  rw [nameOf, element]
  rfl

theorem holder_eq (c : Construction) (n : Nat) : c.holder n = c.store.holder n := by
  unfold holder Store.holder
  cases (c.store.get n).content with
  | element vocabulary name attributes contents => cases contents <;> rfl
  | _ => rfl

theorem holder_eq_self (graded : c.store.Graded loose rank)
    (other : c.isNamed "template" n = false) : c.store.holder n = n := by
  apply graded.holder_eq_self
  intro template
  rw [isNamed_iff.mpr (nameOf_eq template)] at other
  cases other

/-! ## Places -/

/-- The place is right inside the given node. -/
def Aims (c : Construction) (place : Place) (a : Nat) : Prop :=
  c.store.IsHost a ∧
    match place with
    | .inside holder => holder = c.store.holder a
    | .beside table _ =>
      table ∈ c.opened ∧ c.isNamed "table" table = true ∧
        (c.store.get table).parent = some (c.store.holder a)

/-- What is put at a place has been placed inside the node that it aims at. -/
theorem Aims.placed (aims : c.Aims place a) (graded : c.store.Graded loose rank)
    (bound : node < c.store.entries.size)
    (other : node ∈ c.opened → c.isNamed "table" node = false) :
    c.store.Placed (c.store.holder a) node (c.put place node).store := by
  have room := graded.holder_lt a aims.1.isShown
  cases place with
  | inside holder =>
      obtain ⟨-, rfl⟩ := aims
      exact Store.placed_append room bound
  | beside table fallback =>
      obtain ⟨-, member, named, child⟩ := aims
      have apart : table ≠ node := by
        rintro rfl
        rw [other member] at named
        cases named
      rw [put]
      simp only [child, Option.isSome_some, if_true]
      exact Store.placed_insertBefore room bound apart child

/-- The open elements are elements, and those that are tables have a place. -/
structure Open (c : Construction) (loose : Nat → Prop) : Prop where
  element : ∀ n ∈ c.opened, (c.store.element? n).isSome = true
  tied : ∀ n ∈ c.opened, c.isNamed "table" n = true → ¬loose n

theorem Open.isHost (isOpen : c.Open loose) (member : n ∈ c.opened) : c.store.IsHost n :=
  ⟨Store.lt_of_element (isOpen.element n member), .inr (isOpen.element n member)⟩

theorem Open.isHost_headD (isOpen : c.Open loose) (graded : c.store.Graded loose rank)
    {nodes : List Nat} (part : nodes ⊆ c.opened) : c.store.IsHost (nodes.headD 0) := by
  cases nodes with
  | nil => exact graded.host_zero
  | cons first rest => exact isOpen.isHost (part List.mem_cons_self)

theorem isNamed_zero (graded : c.store.Graded loose rank) (solid : name ≠ "") :
    c.isNamed name 0 = false := by
  have root := graded.origin.2
  rw [Bool.eq_false_iff]
  intro named
  rw [isNamed_iff, nameOf, Store.element?_eq] at named
  cases content_eq : (c.store.get 0).content with
  | root =>
      rw [content_eq] at named
      exact solid (congrArg Prod.snd named).symm
  | _ =>
      rw [content_eq] at root
      cases root

theorem getLastD_mem_or (nodes : List Nat) : nodes.getLastD 0 ∈ nodes ∨ nodes.getLastD 0 = 0 := by
  cases nodes with
  | nil => exact .inr rfl
  | cons first rest =>
      have last_eq : (first :: rest).getLastD 0 = (first :: rest).getLast (List.cons_ne_nil _ _) := by
        rw [List.getLastD_cons, List.getLast_eq_getLastD]
      rw [last_eq]
      exact .inl (List.getLast_mem _)

/-- The place for what does not belong into a table is low enough: it is the contents of an open
template, it is around an open table, or it is the outermost element. -/
theorem fosterPlace_aims (isOpen : c.Open loose) (graded : c.store.Graded loose rank) {bound : ℚ}
    (marked : ∀ n ∈ c.opened, c.isOneOf ["template", "table"] n = true → rank n < bound)
    (outermost : rank (c.opened.getLastD 0) < bound) {nodes : List Nat} (part : nodes ⊆ c.opened)
    (passed : ∀ n ∈ c.opened, c.isNamed "template" n = true → n ∈ nodes) :
    ∃ a, c.Aims (c.fosterPlace nodes) a ∧ rank a < bound := by
  induction nodes with
  | nil =>
      have host : c.store.IsHost (c.opened.getLastD 0) := by
        rcases getLastD_mem_or c.opened with member | document
        · exact isOpen.isHost member
        · rw [document]
          exact graded.host_zero
      have plain : c.isNamed "template" (c.opened.getLastD 0) = false := by
        rcases getLastD_mem_or c.opened with member | document
        · rw [Bool.eq_false_iff]
          intro template
          cases passed _ member template
        · rw [document]
          exact isNamed_zero graded (by decide)
      exact ⟨_, ⟨host, (holder_eq_self graded plain).symm⟩, outermost⟩
  | cons node rest induction =>
      have member := part List.mem_cons_self
      rw [fosterPlace]
      split
      · rename_i template
        refine ⟨node, ⟨isOpen.isHost member, holder_eq c node⟩, marked node member ?_⟩
        exact isOneOf_iff.mpr ⟨_, by simp, isNamed_iff.mp template⟩
      · rename_i ordinary
        split
        · rename_i table
          have host := isOpen.isHost member
          have other : node ≠ 0 := by
            rintro rfl
            rw [isNamed_zero graded (by decide)] at table
            cases table
          obtain ⟨a, a_host, inside, child⟩ :=
            graded.attached node host.isShown other (isOpen.tied node member table)
          refine ⟨a, ⟨a_host, member, table, child⟩, ?_⟩
          have higher := graded.rises a a_host.isShown node inside
          exact higher.trans (marked node member (isOneOf_iff.mpr ⟨_, by simp, isNamed_iff.mp table⟩))
        · apply induction (fun n inside => part (List.mem_cons_of_mem _ inside))
          intro n inside template
          refine (List.mem_cons.mp (passed n inside template)).resolve_left ?_
          rintro rfl
          exact ordinary template

/-- What is to be put into a node comes to a place of low rank. -/
theorem placeIn_aims (isOpen : c.Open loose) (graded : c.store.Graded loose rank) {bound : ℚ}
    (host : c.store.IsHost target) (low : rank target < bound)
    (marked : ∀ n ∈ c.opened, c.isOneOf ["template", "table"] n = true → rank n < bound)
    (outermost : rank (c.opened.getLastD 0) < bound) :
    ∃ a, c.Aims (c.placeIn target) a ∧ rank a < bound := by
  rw [placeIn]
  split
  · exact fosterPlace_aims isOpen graded marked outermost (List.Subset.refl _)
      fun n member _ => member
  · exact ⟨target, ⟨host, holder_eq c target⟩, low⟩

/-! ## Sound documents -/

/-- Ranks rise inwards among the nodes, and among the open elements too; the open elements have
none of the names that are avoided, and the formatting elements have names of their own. -/
structure Sound (c : Construction) : Prop where
  ranked : ∃ rank : Nat → ℚ, c.store.Graded (fun _ => False) rank ∧
    c.opened.Pairwise fun inner outer => rank outer < rank inner
  opened : ∀ n ∈ c.opened, ∃ kind, c.store.element? n = some kind ∧
    (kind.1 = .html → kind.2 ∉ avoided)
  head : ∀ n, c.head = some n → c.store.element? n = some (.html, "head")
  formatting : ∀ n tag, .element n tag ∈ c.formatting →
    c.store.element? n = some (.html, tag.name) ∧ tag.name ∈ reopened

namespace Sound

variable (sound : c.Sound)
include sound

theorem isOpen : c.Open fun _ => False := by
  refine ⟨fun n member => ?_, fun _ _ _ => id⟩
  obtain ⟨kind, element, -⟩ := sound.opened n member
  rw [element]
  rfl

theorem lt_size (member : n ∈ c.opened) : n < c.store.entries.size :=
  (sound.isOpen.isHost member).1

/-- The nodes are others now, and ranks of old nodes are as before. -/
theorem restore {store' : Store} (keeps : c.store.Keeps store')
    (graded : ∀ rank, c.store.Graded (fun _ => False) rank →
      ∃ rank' : Nat → ℚ, (∀ n, n < c.store.entries.size → rank' n = rank n) ∧
        store'.Graded (fun _ => False) rank') :
    { c with store := store' }.Sound := by
  obtain ⟨rank, old, falling⟩ := sound.ranked
  obtain ⟨rank', same, new⟩ := graded rank old
  refine ⟨⟨rank', new, ?_⟩, ?_, ?_, ?_⟩
  · apply falling.imp_of_mem
    intro inner outer inner_member outer_member lower
    rw [same inner (sound.lt_size inner_member), same outer (sound.lt_size outer_member)]
    exact lower
  · intro n member
    obtain ⟨kind, element, allowed⟩ := sound.opened n member
    exact ⟨kind, keeps.element? element, allowed⟩
  · exact fun n head => keeps.element? (sound.head n head)
  · intro n tag member
    exact ⟨keeps.element? (sound.formatting n tag member).1, (sound.formatting n tag member).2⟩

end Sound

/-- A sound document comes from the other one, no element of which is lost. -/
structure Leads (c c' : Construction) : Prop where
  sound : c'.Sound
  keeps : c.store.Keeps c'.store
  mode_eq : c'.mode = c.mode
  returnMode_eq : c'.returnMode = c.returnMode
  templateModes_eq : c'.templateModes = c.templateModes

namespace Leads

theorem refl (sound : c.Sound) : c.Leads c := ⟨sound, Store.Keeps.refl _, rfl, rfl, rfl⟩

variable (leads : c.Leads c')
include leads

theorem trans {third : Construction} (next : c'.Leads third) : c.Leads third :=
  ⟨next.sound, leads.keeps.trans next.keeps, next.mode_eq.trans leads.mode_eq,
    next.returnMode_eq.trans leads.returnMode_eq,
    next.templateModes_eq.trans leads.templateModes_eq⟩

/-- Elements are closed. -/
theorem shrink {opened : List Nat} (part : opened.Sublist c'.opened) :
    c.Leads { c' with opened } := by
  obtain ⟨rank, graded, falling⟩ := leads.sound.ranked
  exact ⟨⟨⟨rank, graded, falling.sublist part⟩,
    fun n member => leads.sound.opened n (part.subset member), leads.sound.head,
    leads.sound.formatting⟩, leads.keeps, leads.mode_eq, leads.returnMode_eq,
    leads.templateModes_eq⟩

/-- Formatting elements are forgotten, or markers are put among them. -/
theorem thin {formatting : List Formatting}
    (part : ∀ n tag, .element n tag ∈ formatting → .element n tag ∈ c'.formatting) :
    c.Leads { c' with formatting } :=
  ⟨⟨leads.sound.ranked, leads.sound.opened, leads.sound.head,
    fun n tag member => leads.sound.formatting n tag (part n tag member)⟩,
    leads.keeps, leads.mode_eq, leads.returnMode_eq, leads.templateModes_eq⟩

theorem pop : c.Leads c'.pop := leads.shrink (List.tail_sublist _)

theorem close (node : Nat) : c.Leads (c'.close node) := leads.shrink List.erase_sublist

theorem popThrough (found : Nat → Bool) : c.Leads (c'.popThrough found) :=
  leads.shrink ((List.tail_sublist _).trans (List.dropWhile_sublist _))

theorem popNamed (name : String) : c.Leads (c'.popNamed name) := leads.popThrough _

theorem popTo (names : List String) : c.Leads (c'.popTo names) :=
  leads.shrink (List.dropWhile_sublist _)

theorem closeImplied (names : List String) : c.Leads (c'.closeImplied names) :=
  leads.shrink (List.dropWhile_sublist _)

theorem closeImpliedExcept (name : String) : c.Leads (c'.closeImpliedExcept name) :=
  leads.closeImplied _

theorem closeParagraph : c.Leads c'.closeParagraph :=
  (leads.closeImpliedExcept "p").popNamed "p"

theorem closeOpenParagraph : c.Leads c'.closeOpenParagraph := by
  unfold Construction.closeOpenParagraph
  split
  · exact leads.closeParagraph
  · exact leads

theorem closeOrdinary (name : String) : c.Leads (c'.closeOrdinary name) := by
  unfold Construction.closeOrdinary
  split
  · exact (leads.closeImpliedExcept name).popNamed name
  · exact leads

theorem mark : c.Leads c'.mark := leads.thin fun _ _ member => by simpa using member

theorem clearFormatting : c.Leads c'.clearFormatting :=
  leads.thin fun _ _ member =>
    (List.dropWhile_sublist _).subset ((List.tail_sublist _).subset member)

theorem forgetFormatting (node : Nat) : c.Leads (c'.forgetFormatting node) :=
  leads.thin fun _ _ member => (List.mem_filter.mp member).1

/-- Nodes are added, and none is lost. -/
theorem restore {store' : Store} (keeps : c'.store.Keeps store')
    (graded : ∀ rank, c'.store.Graded (fun _ => False) rank →
      ∃ rank' : Nat → ℚ, (∀ n, n < c'.store.entries.size → rank' n = rank n) ∧
        store'.Graded (fun _ => False) rank') :
    c.Leads { c' with store := store' } :=
  ⟨leads.sound.restore keeps graded, leads.keeps.trans keeps, leads.mode_eq, leads.returnMode_eq,
    leads.templateModes_eq⟩

theorem addAttributes (node : Nat) (added : List (String × String)) :
    c.Leads { c' with store := c'.store.addAttributes node added } :=
  leads.restore (Store.keeps_addAttributes _ node added)
    fun rank graded => ⟨rank, fun _ _ => rfl, graded.addAttributes node added⟩

end Leads

/-! ## New text and new elements -/

theorem current_mem_or (c : Construction) : c.current ∈ c.opened ∨ c.current = 0 := by
  unfold current
  cases c.opened with
  | nil => exact .inr rfl
  | cons first rest => exact .inl List.mem_cons_self

/-- The place for what comes next is inside some node. -/
theorem exists_aims (isOpen : c.Open loose) (graded : c.store.Graded loose rank) {bound : ℚ}
    (above : ∀ n, (n ∈ c.opened ∨ n = 0) → rank n < bound) :
    ∃ a, c.Aims (c.placeIn c.current) a ∧ rank a < bound := by
  apply placeIn_aims isOpen graded (isOpen.isHost_headD graded (List.Subset.refl _))
  · exact above _ (current_mem_or c)
  · exact fun n member _ => above n (.inl member)
  · exact above _ (getLastD_mem_or c.opened)

theorem addChar_eq (c : Construction) (char : Char) :
    c.addChar char = { c with store := (c.addChar char).store } := by
  unfold addChar
  split
  · rfl
  · split <;> rfl

theorem Leads.addChar (leads : c.Leads c') (char : Char) :
    c.Leads (c'.addChar char) := by
  have sound := leads.sound
  -- A character goes to the end of a text that is there, or it makes a text at the same place.
  have outcome (rank : Nat → ℚ) (graded : c'.store.Graded (fun _ => False) rank) :
      (∃ text, (c'.addChar char).store = c'.store.pushChar text char) ∨
        ∃ a, c'.store.IsHost a ∧ (c'.store.add (.text [char])).2.Placed (c'.store.holder a)
          c'.store.entries.size (c'.addChar char).store := by
    obtain ⟨level, above⟩ := c'.store.exists_above rank
    have low (n : Nat) (member : n ∈ c'.opened ∨ n = 0) : rank n < level := by
      rcases member with member | rfl
      · exact above n (sound.lt_size member)
      · exact above 0 graded.origin.1
    obtain ⟨a, aims, -⟩ := exists_aims sound.isOpen graded low
    have room := graded.holder_lt a aims.1.isShown
    have room' : c'.store.holder a < (c'.store.add (.text [char])).2.entries.size := by
      rw [Store.size_add]
      omega
    have bound : c'.store.entries.size < (c'.store.add (.text [char])).2.entries.size := by
      rw [Store.size_add]
      omega
    unfold Construction.addChar
    cases place_eq : c'.placeIn c'.current with
    | inside holder =>
        rw [place_eq] at aims
        obtain ⟨host, rfl⟩ := aims
        rcases Store.appendChar_cases c'.store (c'.store.holder a) char with ⟨text, old⟩ | new
        · exact .inl ⟨text, old⟩
        · refine .inr ⟨a, host, ?_⟩
          dsimp only
          rw [new]
          exact Store.placed_append room' bound
    | beside table fallback =>
        rw [place_eq] at aims
        obtain ⟨host, member, -, child⟩ := aims
        simp only [child, Option.isSome_some, if_true]
        rcases Store.insertCharBefore_cases char child with ⟨text, old⟩ | new
        · exact .inl ⟨text, old⟩
        · refine .inr ⟨a, host, ?_⟩
          have inside := sound.lt_size member
          rw [new]
          apply Store.placed_insertBefore room' bound inside.ne
          rw [Store.get_add, if_neg inside.ne, child]
  rw [addChar_eq]
  apply leads.restore
  · obtain ⟨rank, graded, -⟩ := sound.ranked
    rcases outcome rank graded with ⟨text, old⟩ | ⟨a, host, placed⟩
    · rw [old]
      exact Store.keeps_pushChar _ text char
    · exact (Store.Keeps.add _ _).trans (Store.Keeps.placed placed)
  · intro rank graded
    rcases outcome rank graded with ⟨text, old⟩ | ⟨a, host, placed⟩
    · rw [old]
      exact ⟨rank, fun _ _ => rfl, graded.pushChar text char⟩
    · exact graded.addLeaf host rfl rfl placed

theorem create_eq (c : Construction) (vocabulary : Vocabulary) (name : String)
    (attributes : List (String × String)) :
    c.create vocabulary name attributes =
      ((c.store.addElement vocabulary name attributes).1,
        { c with store := (c.store.addElement vocabulary name attributes).2 }) := by
  by_cases template : vocabulary = .html ∧ name = "template"
  · simp only [create, Store.addElement, if_pos template]
  · simp only [create, Store.addElement, if_neg template]

theorem put_eq (c : Construction) (place : Place) (node : Nat) :
    c.put place node = { c with store := (c.put place node).store } := by
  unfold put
  split
  · rfl
  · split <;> rfl

/-- A new element that stands in its place, above all other ranks. -/
structure Inserted (store : Store) (rank : Nat → ℚ) (kind : Vocabulary × String)
    (attributes : List (String × String)) (node : Nat) (store' : Store) (rank' : Nat → ℚ) :
    Prop where
  keeps : store.Keeps store'
  carries : ∀ entry ∈ attributes, store'.Carries entry
  graded : store'.Graded (fun _ => False) rank'
  element : store'.element? node = some kind
  old : ∀ n, n < store.entries.size → rank' n = rank n
  above : ∀ n, n < store.entries.size → rank n < rank' node

/-- A new element comes to stand in its place. -/
def Inserts (store : Store) (kind : Vocabulary × String) (attributes : List (String × String))
    (node : Nat) (store' : Store) : Prop :=
  ∀ rank, store.Graded (fun _ => False) rank →
    ∃ rank', Inserted store rank kind attributes node store' rank'

/-- A new element comes to stand where a place of low rank has been found for it. -/
theorem inserts_put (isOpen : c.Open fun _ => False) {vocabulary : Vocabulary} {name : String}
    {attributes : List (String × String)} {node : Nat} {created : Construction}
    (create_eq : c.create vocabulary name attributes = (node, created)) (place : Place)
    (aim : ∀ (rank : Nat → ℚ) (bound : ℚ),
      created.store.Graded (fun n => False ∨ n = node) rank →
        created.Open (fun n => False ∨ n = node) →
          (∀ n, n ∈ created.opened ∨ n = 0 ∨ c.store.IsHost n → rank n < bound) →
            ∃ a, created.Aims place a ∧ rank a < bound) :
    Inserts c.store (vocabulary, name) attributes node (created.put place node).store := by
  intro rank graded
  rw [Construction.create_eq, Prod.mk.injEq] at create_eq
  obtain ⟨rfl, rfl⟩ := create_eq
  obtain ⟨level, above⟩ := c.store.exists_above rank
  have added := Store.added_addElement c.store vocabulary name attributes
  obtain ⟨rank', old, new, graded'⟩ :=
    graded.addElement (above 0 graded.origin.1) vocabulary name attributes
  have fresh := added.fresh
  generalize (c.store.addElement vocabulary name attributes).1 = node at *
  generalize (c.store.addElement vocabulary name attributes).2 = store at *
  let created : Construction := { c with store }
  have isOpen' : created.Open fun n => False ∨ n = node := by
    refine ⟨fun n member => ?_, fun n member _ loose => ?_⟩
    · have inside := (isOpen.isHost member).1
      exact (congrArg Option.isSome (added.element_old inside)).trans (isOpen.element n member)
    · have inside := (isOpen.isHost member).1
      have same : n = node := loose.resolve_left id
      omega
  have low (n : Nat) (member : n ∈ created.opened ∨ n = 0 ∨ c.store.IsHost n) : rank' n < level := by
    have inside : n < c.store.entries.size := by
      rcases member with member | rfl | host
      · exact (isOpen.isHost member).1
      · exact graded.origin.1
      · exact host.1
    rw [old n inside]
    exact above n inside
  obtain ⟨a, aims, lower⟩ := aim rank' level graded' isOpen' low
  have placed := aims.placed graded' added.bound fun member => by
    have inside := (isOpen.isHost member).1
    omega
  have moved := graded'.move aims.1 added.isHost.isShown (by rwa [new]) placed
  refine ⟨rank', ?_, ?_, ?_, ?_, old, ?_⟩
  · exact added.keeps.trans (Store.Keeps.placed placed)
  · intro entry member
    obtain ⟨contents, content_eq⟩ := added.content_eq
    exact (Store.Keeps.placed placed).carries ⟨node, _, _, _, _, content_eq, member⟩
  · exact moved.weaken fun n _ free => free.2 (free.1.resolve_left id)
  · exact (Store.Keeps.placed placed).element? added.element_eq
  · intro n inside
    rw [new]
    exact above n inside

theorem inserts_insertClosed (isOpen : c.Open fun _ => False) (vocabulary : Vocabulary)
    (name : String) (attributes : List (String × String)) :
    Inserts c.store (vocabulary, name) attributes (c.insertClosed vocabulary name attributes).1
      (c.insertClosed vocabulary name attributes).2.store :=
  inserts_put isOpen rfl _ fun _ _ graded isOpen' above =>
    exists_aims isOpen' graded fun n member => above n (member.imp_right .inl)

theorem insertClosed_eq (c : Construction) (vocabulary : Vocabulary) (name : String)
    (attributes : List (String × String)) :
    (c.insertClosed vocabulary name attributes).2 =
      { c with store := (c.insertClosed vocabulary name attributes).2.store } := by
  rw [insertClosed, create_eq]
  dsimp only
  rw [put_eq]

section Inserts

variable {kind : Vocabulary × String} {attributes : List (String × String)} {store' : Store}

theorem Sound.inserted (sound : c.Sound) (inserts : Inserts c.store kind attributes node store') :
    c.store.Keeps store' ∧ store'.element? node = some kind ∧
      ∀ entry ∈ attributes, store'.Carries entry := by
  obtain ⟨rank, graded, -⟩ := sound.ranked
  obtain ⟨rank', inserted⟩ := inserts rank graded
  exact ⟨inserted.keeps, inserted.element, inserted.carries⟩

/-- A new element is left closed. -/
theorem Leads.stay (leads : c.Leads c') (inserts : Inserts c'.store kind attributes node store') :
    c.Leads { c' with store := store' } := by
  apply leads.restore (leads.sound.inserted inserts).1
  intro rank graded
  obtain ⟨rank', inserted⟩ := inserts rank graded
  exact ⟨rank', inserted.old, inserted.graded⟩

/-- A new element is opened. -/
theorem Leads.enter (leads : c.Leads c') (inserts : Inserts c'.store kind attributes node store')
    (allowed : kind.1 = .html → kind.2 ∉ avoided) :
    c.Leads { c' with store := store', opened := node :: c'.opened } := by
  have sound := leads.sound
  have closed := leads.stay inserts
  obtain ⟨rank, graded, falling⟩ := sound.ranked
  obtain ⟨rank', inserted⟩ := inserts rank graded
  refine ⟨⟨⟨rank', inserted.graded, ?_⟩, ?_, closed.sound.head, closed.sound.formatting⟩,
    closed.keeps, closed.mode_eq, closed.returnMode_eq, closed.templateModes_eq⟩
  · rw [List.pairwise_cons]
    refine ⟨fun outer member => ?_, falling.imp_of_mem ?_⟩
    · rw [inserted.old outer (sound.lt_size member)]
      exact inserted.above outer (sound.lt_size member)
    · intro inner outer inner_member outer_member lower
      rw [inserted.old inner (sound.lt_size inner_member),
        inserted.old outer (sound.lt_size outer_member)]
      exact lower
  · intro n member
    rcases List.mem_cons.mp member with rfl | old
    · exact ⟨_, inserted.element, allowed⟩
    · exact closed.sound.opened n old

end Inserts

theorem Leads.insertClosed (leads : c.Leads c') (vocabulary : Vocabulary) (name : String)
    (attributes : List (String × String)) :
    c.Leads (c'.insertClosed vocabulary name attributes).2 := by
  rw [insertClosed_eq]
  exact leads.stay (inserts_insertClosed leads.sound.isOpen vocabulary name attributes)

theorem Leads.insertOpen (leads : c.Leads c') (vocabulary : Vocabulary) (name : String)
    (allowed : vocabulary = .html → name ∉ avoided) (attributes : List (String × String)) :
    c.Leads (c'.insertOpen vocabulary name attributes).2 := by
  have entered :=
    leads.enter (inserts_insertClosed leads.sound.isOpen vocabulary name attributes) allowed
  rw [Construction.insertOpen]
  dsimp only
  rw [insertClosed_eq]
  exact entered

/-- A new element has its attributes. -/
theorem Sound.carries_insertClosed (sound : c.Sound) (vocabulary : Vocabulary) (name : String)
    {attributes : List (String × String)} {entry : String × String} (member : entry ∈ attributes) :
    (c.insertClosed vocabulary name attributes).2.store.Carries entry :=
  (sound.inserted (inserts_insertClosed sound.isOpen vocabulary name attributes)).2.2 entry member

/-- The root element is opened. -/
theorem Leads.openRoot (leads : c.Leads c') (attributes : List (String × String)) :
    c.Leads (c'.openRoot attributes) := by
  cases create_pair : c'.create .html "html" attributes with
  | mk node created =>
      have inserts := inserts_put leads.sound.isOpen create_pair (.inside 0)
        fun rank bound graded _ above => by
          refine ⟨0, ⟨graded.host_zero, ?_⟩, above 0 (.inr (.inl rfl))⟩
          exact (holder_eq_self graded (isNamed_zero graded (by decide))).symm
      have entered := leads.enter inserts fun _ => by decide
      rw [Construction.openRoot, create_pair]
      rw [create_eq, Prod.mk.injEq] at create_pair
      rw [← create_pair.2] at entered ⊢
      exact entered

theorem Leads.openTag (leads : c.Leads c') {tag : Tag} (allowed : tag.name ∉ avoided) :
    c.Leads (c'.openTag tag) :=
  leads.insertOpen _ _ (fun _ => allowed) _

theorem Leads.openNamed (leads : c.Leads c') {name : String}
    (allowed : name ∉ avoided) : c.Leads (c'.openNamed name) :=
  leads.insertOpen _ _ (fun _ => allowed) _

theorem Leads.addEmpty (leads : c.Leads c') (tag : Tag) : c.Leads (c'.addEmpty tag) :=
  leads.insertClosed _ _ _

end Construction
end Markup
end ReactiveTemplate
