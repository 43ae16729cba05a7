import Mathlib.Algebra.Order.Field.Rat
import Mathlib.Data.Finset.Card
import Mathlib.Data.Finset.Range
import ReactiveTemplate.Markup.Dom

/-!
# Nodes of a document under construction

The nodes of a store are moved about, and the finished tree shows those that can be reached from the
document itself.  A store is graded if nodes have ranks that rise from every node to what stands
inside it, and if every node but the document stands inside another one.  Then every node is shown,
however deep it lies.  Putting a node into one of lower rank keeps this, and ranks are rational
numbers, so that there is always room for a new node between two others.
-/

namespace ReactiveTemplate
namespace Markup

/-- The root that holds what is put into an element, if it is not the element itself. -/
def Content.contents? : Content → Option Nat
  | .element _ _ _ contents => contents
  | _ => none

/-- Vocabulary and name of an element. -/
def Content.kind? : Content → Option (Vocabulary × String)
  | .element vocabulary name _ _ => some (vocabulary, name)
  | _ => none

/-- The content is that of a document or of the contents of an element. -/
def Content.isRoot : Content → Bool
  | .root => true
  | _ => false

namespace Store

variable {store store' : Store} {node target n m : Nat}

/-! ## Changes of a node -/

theorem element?_eq (store : Store) (n : Nat) :
    store.element? n = (store.get n).content.kind? := by
  rw [element?]
  cases (store.get n).content <;> rfl

theorem get_of_le (beyond : store.entries.size ≤ n) : store.get n = default := by
  simp [get, Array.getD, Nat.not_lt.mpr beyond]

theorem get_modify (store : Store) (node n : Nat) (change : Entry → Entry) :
    (store.modify node change).get n =
      if n = node ∧ n < store.entries.size then change (store.get n) else store.get n := by
  by_cases inside : n < store.entries.size
  · by_cases same : n = node
    · subst same
      simp [get, modify, Array.getD, inside, Array.getElem_modify]
    · simp [get, modify, Array.getD, inside, same, Ne.symm same, Array.getElem_modify]
  · simp [get, modify, Array.getD, inside]

@[simp]
theorem size_modify (store : Store) (node : Nat) (change : Entry → Entry) :
    (store.modify node change).entries.size = store.entries.size := by
  simp [modify]

theorem get_add (store : Store) (content : Content) (n : Nat) :
    (store.add content).2.get n =
      if n = store.entries.size then { content } else store.get n := by
  rcases Nat.lt_trichotomy n store.entries.size with inside | same | beyond
  · simp [get, add, Array.getD, inside, Nat.lt_succ_of_lt inside, Nat.ne_of_lt inside,
      Array.getElem_push]
  · subst same
    simp [get, add, Array.getD]
  · simp [get, add, Array.getD, Nat.not_lt.mpr (Nat.le_of_lt beyond),
      Nat.not_lt.mpr (Nat.succ_le_of_lt beyond), Nat.ne_of_gt beyond]

@[simp]
theorem size_add (store : Store) (content : Content) :
    (store.add content).2.entries.size = store.entries.size + 1 := by
  simp [add]

theorem children_reparent (store : Store) (node n : Nat) (parent : Option Nat) :
    ((store.modify node fun e => { e with parent }).get n).children = (store.get n).children := by
  rw [get_modify]
  split <;> rfl

theorem children_relist (store : Store) (node n : Nat) (change : List Nat → List Nat) :
    ((store.modify node fun e => { e with children := change e.children }).get n).children =
      if n = node ∧ n < store.entries.size then change (store.get n).children
      else (store.get n).children := by
  rw [get_modify]
  split <;> rfl

@[simp]
theorem size_detach (store : Store) (node : Nat) :
    (store.detach node).entries.size = store.entries.size := by
  unfold detach
  split <;> simp

@[simp]
theorem content_detach (store : Store) (node n : Nat) :
    ((store.detach node).get n).content = (store.get n).content := by
  unfold detach
  split
  · rfl
  · rw [get_modify, get_modify]
    split <;> split <;> rfl

theorem children_detach (store : Store) (node n : Nat) :
    ((store.detach node).get n).children =
      if (store.get node).parent = some n then (store.get n).children.filter (· != node)
      else (store.get n).children := by
  by_cases inside : n < store.entries.size
  · unfold detach
    split
    · rename_i orphan
      simp [orphan]
    · rename_i parent child
      rw [children_reparent, children_relist store parent n (List.filter (· != node)), child]
      simp [inside, eq_comm]
  · have beyond : store.entries.size ≤ n := Nat.not_lt.mp inside
    have none : (store.detach node).get n = default := get_of_le (by simpa using beyond)
    rw [none, get_of_le beyond]
    split <;> rfl

theorem mem_children_detach {m n : Nat} (other : m ≠ node) :
    m ∈ ((store.detach node).get n).children ↔ m ∈ (store.get n).children := by
  rw [children_detach]
  split <;> simp [other]

theorem of_mem_children_detach {m n : Nat} (member : m ∈ ((store.detach node).get n).children) :
    m ∈ (store.get n).children := by
  rw [children_detach] at member
  split at member
  · exact (List.mem_filter.mp member).1
  · exact member

theorem parent_detach {n : Nat} (other : n ≠ node) :
    ((store.detach node).get n).parent = (store.get n).parent := by
  unfold detach
  split
  · rfl
  · rw [get_modify, if_neg (fun both => other both.1), get_modify]
    split <;> rfl

/-! ## Places -/

/-- The node has been put among the children of another one, and all else is where it was. -/
structure Placed (store : Store) (place node : Nat) (store' : Store) : Prop where
  size_eq : store'.entries.size = store.entries.size
  content_eq : ∀ n, (store'.get n).content = (store.get n).content
  parent_eq : (store'.get node).parent = some place
  parent_other : ∀ n, n ≠ node → (store'.get n).parent = (store.get n).parent
  here : node ∈ (store'.get place).children
  only : ∀ n, node ∈ (store'.get n).children → n = place ∨ node ∈ (store.get n).children
  elsewhere : ∀ n m, m ≠ node → (m ∈ (store'.get n).children ↔ m ∈ (store.get n).children)

/-- A node is taken away from its parent and put among the children of another one. -/
theorem placed_relist {place : Nat} (change : List Nat → List Nat)
    (place_bound : place < store.entries.size) (node_bound : node < store.entries.size)
    (mem_change : ∀ m nodes, m ∈ change nodes ↔ m = node ∨ m ∈ nodes) :
    store.Placed place node
      (((store.detach node).modify place fun e =>
        { e with children := change e.children }).modify node fun e =>
          { e with parent := some place }) := by
  have children_eq (n : Nat) :
      ((((store.detach node).modify place fun e =>
        { e with children := change e.children }).modify node fun e =>
          { e with parent := some place }).get n).children =
        if n = place then change ((store.detach node).get n).children
        else ((store.detach node).get n).children := by
    rw [children_reparent, children_relist _ place n change]
    by_cases same : n = place
    · simp [same, place_bound]
    · simp [same]
  refine ⟨?_, ?_, ?_, ?_, ?_, ?_, ?_⟩
  · simp
  · intro n
    rw [get_modify, get_modify]
    split <;> split <;> simp
  · rw [get_modify]
    simp [node_bound]
  · intro n other
    rw [get_modify, if_neg (fun both => other both.1), get_modify]
    split <;> exact parent_detach other
  · rw [children_eq, if_pos rfl, mem_change]
    exact .inl rfl
  · intro n member
    rw [children_eq] at member
    split at member
    · rename_i same
      exact .inl same
    · exact .inr (of_mem_children_detach member)
  · intro n m other
    rw [children_eq]
    split
    · rw [mem_change, mem_children_detach other, or_iff_right other]
    · exact mem_children_detach other

theorem placed_append {place : Nat} (place_bound : place < store.entries.size)
    (node_bound : node < store.entries.size) :
    store.Placed place node (store.append place node) :=
  placed_relist (· ++ [node]) place_bound node_bound fun m nodes => by simp [or_comm]

theorem mem_insertedBefore {sibling m : Nat} {nodes : List Nat} :
    m ∈ insertedBefore sibling node nodes ↔ m = node ∨ m ∈ nodes := by
  induction nodes with
  | nil => simp [insertedBefore]
  | cons first rest induction =>
      rw [insertedBefore]
      split
      · simp
      · simp [induction, or_left_comm]

theorem placed_insertBefore {place sibling : Nat} (place_bound : place < store.entries.size)
    (node_bound : node < store.entries.size) (other : sibling ≠ node)
    (child : (store.get sibling).parent = some place) :
    store.Placed place node (store.insertBefore sibling node) := by
  have found : ((store.detach node).get sibling).parent = some place := by
    rw [parent_detach other, child]
  rw [insertBefore]
  simp only [found]
  exact placed_relist (insertedBefore sibling node) place_bound node_bound
    fun m nodes => mem_insertedBefore

/-! ## Elements that stay -/

/-- Every element of the store is one of the other store too, with at least its attributes. -/
def Keeps (store store' : Store) : Prop :=
  ∀ n vocabulary name attributes contents,
    (store.get n).content = .element vocabulary name attributes contents →
      ∃ attributes', (store'.get n).content = .element vocabulary name attributes' contents ∧
        attributes ⊆ attributes'

namespace Keeps

theorem of_content (same : ∀ n, (store'.get n).content = (store.get n).content) :
    store.Keeps store' := by
  intro n vocabulary name attributes contents content_eq
  exact ⟨attributes, by rw [same, content_eq], List.Subset.refl _⟩

theorem refl (store : Store) : store.Keeps store := of_content fun _ => rfl

theorem trans {third : Store} (first : store.Keeps store') (second : store'.Keeps third) :
    store.Keeps third := by
  intro n vocabulary name attributes contents content_eq
  obtain ⟨middle, middle_eq, part⟩ := first n _ _ _ _ content_eq
  obtain ⟨last, last_eq, part'⟩ := second n _ _ _ _ middle_eq
  exact ⟨last, last_eq, List.Subset.trans part part'⟩

theorem placed {place : Nat} (placed : store.Placed place node store') : store.Keeps store' :=
  of_content placed.content_eq

theorem detach (store : Store) (node : Nat) : store.Keeps (store.detach node) :=
  of_content (content_detach store node)

theorem add (store : Store) (content : Content) : store.Keeps (store.add content).2 := by
  intro n vocabulary name attributes contents content_eq
  have other : n ≠ store.entries.size := by
    rintro rfl
    rw [get_of_le (Nat.le_refl _)] at content_eq
    cases content_eq
  refine ⟨attributes, ?_, List.Subset.refl _⟩
  rw [get_add, if_neg other, content_eq]

theorem element? (keeps : store.Keeps store') {kind : Vocabulary × String}
    (element : store.element? n = some kind) : store'.element? n = some kind := by
  unfold Store.element? at element ⊢
  split at element
  · rename_i content_eq
    obtain ⟨attributes', content_eq', -⟩ := keeps n _ _ _ _ content_eq
    rw [content_eq']
    exact element
  · cases element

end Keeps

theorem lt_of_element (element : (store.element? n).isSome = true) : n < store.entries.size := by
  by_contra beyond
  rw [element?, get_of_le (Nat.not_lt.mp beyond)] at element
  cases element

/-! ## Graded stores -/

/-- The node that lists what is put into the given one. -/
def holder (store : Store) (node : Nat) : Nat := (store.get node).content.contents?.getD node

/-- The nodes right inside a node, as the finished tree shows them. -/
def inside (store : Store) (node : Nat) : List Nat := (store.get (store.holder node)).children

/-- The node is part of the finished tree: it is the document itself, or no root. -/
def IsShown (store : Store) (node : Nat) : Prop :=
  node < store.entries.size ∧ (node = 0 ∨ (store.get node).content.isRoot = false)

/-- The node shows what is inside it: it is the document itself or an element. -/
def IsHost (store : Store) (node : Nat) : Prop :=
  node < store.entries.size ∧ (node = 0 ∨ (store.element? node).isSome = true)

theorem IsHost.isShown (host : store.IsHost node) : store.IsShown node := by
  refine ⟨host.1, host.2.imp_right fun element => ?_⟩
  rw [element?] at element
  split at element
  · rename_i content_eq
    rw [content_eq]
    rfl
  · cases element

/-- Ranks rise from every node to the nodes inside it, and every node but the document and the loose
ones stands inside another. -/
structure Graded (store : Store) (loose : Nat → Prop) (rank : Nat → ℚ) : Prop where
  origin : 0 < store.entries.size ∧ (store.get 0).content.isRoot = true
  rises : ∀ a, store.IsShown a → ∀ n ∈ store.inside a, rank a < rank n
  shown : ∀ a, store.IsShown a → ∀ n ∈ store.inside a, store.IsShown n
  attached : ∀ n, store.IsShown n → n ≠ 0 → ¬loose n → ∃ a, store.IsHost a ∧
    n ∈ store.inside a ∧ (store.get n).parent = some (store.holder a)
  lowest : ∀ n, store.IsShown n → n ≠ 0 → rank 0 < rank n
  holder_lt : ∀ a, store.IsShown a → store.holder a < store.entries.size
  holder_inj : ∀ a b, store.IsShown a → store.IsShown b → store.holder a = store.holder b → a = b
  template : ∀ a, (store.get a).content.contents? ≠ none →
    store.element? a = some (.html, "template")

/-- The nodes are the same and of the same kinds, wherever they stand. -/
structure SameKinds (store store' : Store) : Prop where
  size_eq : store'.entries.size = store.entries.size
  element_eq : ∀ n, store'.element? n = store.element? n
  contents_eq : ∀ n, (store'.get n).content.contents? = (store.get n).content.contents?
  isRoot_eq : ∀ n, (store'.get n).content.isRoot = (store.get n).content.isRoot

namespace SameKinds

theorem of_content (size_eq : store'.entries.size = store.entries.size)
    (content_eq : ∀ n, (store'.get n).content = (store.get n).content) :
    store.SameKinds store' := by
  refine ⟨size_eq, fun n => ?_, fun n => ?_, fun n => ?_⟩
  · rw [element?, element?, content_eq]
  · rw [content_eq]
  · rw [content_eq]

theorem placed {place : Nat} (placed : store.Placed place node store') : store.SameKinds store' :=
  of_content placed.size_eq placed.content_eq

theorem refl (store : Store) : store.SameKinds store := of_content rfl fun _ => rfl

theorem trans {third : Store} (first : store.SameKinds store') (second : store'.SameKinds third) :
    store.SameKinds third := by
  refine ⟨?_, fun n => ?_, fun n => ?_, fun n => ?_⟩
  · rw [second.size_eq, first.size_eq]
  · rw [second.element_eq, first.element_eq]
  · rw [second.contents_eq, first.contents_eq]
  · rw [second.isRoot_eq, first.isRoot_eq]

theorem detach (store : Store) (node : Nat) : store.SameKinds (store.detach node) :=
  of_content (size_detach store node) (content_detach store node)

variable (same : store.SameKinds store')
include same

theorem holder_eq (n : Nat) : store'.holder n = store.holder n := by
  rw [holder, holder, same.contents_eq]

theorem isShown_iff {n : Nat} : store'.IsShown n ↔ store.IsShown n := by
  rw [IsShown, IsShown, same.size_eq, same.isRoot_eq]

theorem isHost_iff {n : Nat} : store'.IsHost n ↔ store.IsHost n := by
  rw [IsHost, IsHost, same.size_eq, same.element_eq]

end SameKinds

namespace Graded

variable {loose loose' : Nat → Prop} {rank : Nat → ℚ}

theorem weaken (graded : store.Graded loose rank)
    (wider : ∀ n, store.IsShown n → loose n → loose' n) : store.Graded loose' rank :=
  { graded with
    attached := fun n shown other tied =>
      graded.attached n shown other fun free => tied (wider n shown free) }

theorem host_zero (graded : store.Graded loose rank) : store.IsHost 0 := ⟨graded.origin.1, .inl rfl⟩

/-- Only a template keeps apart what is put into it. -/
theorem holder_eq_self (graded : store.Graded loose rank)
    (other : store.element? n ≠ some (.html, "template")) : store.holder n = n := by
  rw [holder]
  cases contents_eq : (store.get n).content.contents? with
  | none => rfl
  | some contents =>
      exact absurd (graded.template n (by rw [contents_eq]; nofun)) other

/-- The document itself is not an element. -/
theorem zero_lt (graded : store.Graded loose rank) (element : (store.element? n).isSome = true) :
    rank 0 < rank n := by
  have host : store.IsHost n := ⟨lt_of_element element, .inr element⟩
  apply graded.lowest n host.isShown
  rintro rfl
  have root := graded.origin.2
  rw [element?_eq] at element
  cases content_eq : (store.get 0).content with
  | root =>
      rw [content_eq] at element
      cases element
  | _ =>
      rw [content_eq] at root
      cases root

/-- Nodes that are put elsewhere. -/
theorem rearrange (graded : store.Graded loose rank) (same : store.SameKinds store')
    (inside : ∀ a, store.IsShown a → ∀ n ∈ store'.inside a, rank a < rank n ∧ store.IsShown n)
    (attached : ∀ n, store.IsShown n → n ≠ 0 → ¬loose' n → ∃ a, store.IsHost a ∧
      n ∈ store'.inside a ∧ (store'.get n).parent = some (store.holder a)) :
    store'.Graded loose' rank := by
  refine ⟨?_, ?_, ?_, ?_, ?_, ?_, ?_, ?_⟩
  · rw [same.size_eq, same.isRoot_eq]
    exact graded.origin
  · intro a shown n member
    exact (inside a (same.isShown_iff.mp shown) n member).1
  · intro a shown n member
    exact same.isShown_iff.mpr (inside a (same.isShown_iff.mp shown) n member).2
  · intro n shown other tied
    obtain ⟨a, host, member, parent_eq⟩ := attached n (same.isShown_iff.mp shown) other tied
    exact ⟨a, same.isHost_iff.mpr host, member, by rw [parent_eq, same.holder_eq]⟩
  · intro n shown other
    exact graded.lowest n (same.isShown_iff.mp shown) other
  · intro a shown
    rw [same.holder_eq, same.size_eq]
    exact graded.holder_lt a (same.isShown_iff.mp shown)
  · intro a b a_shown b_shown holders
    rw [same.holder_eq, same.holder_eq] at holders
    exact graded.holder_inj a b (same.isShown_iff.mp a_shown) (same.isShown_iff.mp b_shown) holders
  · intro a some
    rw [same.contents_eq] at some
    rw [same.element_eq]
    exact graded.template a some

/-- A node that is put into one of lower rank is no longer loose. -/
theorem move (graded : store.Graded loose rank) (host : store.IsHost target)
    (node_shown : store.IsShown node) (higher : rank target < rank node)
    (placed : store.Placed (store.holder target) node store') :
    store'.Graded (fun n => loose n ∧ n ≠ node) rank := by
  have same := SameKinds.placed placed
  apply graded.rearrange same
  · intro a shown n member
    rw [inside, same.holder_eq] at member
    by_cases itself : n = node
    · subst itself
      rcases placed.only _ member with here | old
      · rw [graded.holder_inj a target shown host.isShown here]
        exact ⟨higher, node_shown⟩
      · exact ⟨graded.rises a shown n old, node_shown⟩
    · have old : n ∈ store.inside a := (placed.elsewhere _ n itself).mp member
      exact ⟨graded.rises a shown n old, graded.shown a shown n old⟩
  · intro n shown other tied
    by_cases itself : n = node
    · subst itself
      refine ⟨target, host, ?_, placed.parent_eq⟩
      rw [inside, same.holder_eq]
      exact placed.here
    · obtain ⟨a, a_host, member, parent_eq⟩ :=
        graded.attached n shown other fun free => tied ⟨free, itself⟩
      refine ⟨a, a_host, ?_, ?_⟩
      · rw [inside, same.holder_eq]
        exact (placed.elsewhere _ n itself).mpr member
      · rw [placed.parent_other n itself, parent_eq]

/-- Nodes that are put, one after the other, into one of lower rank. -/
theorem moveAll (graded : store.Graded loose rank) (host : store.IsHost target)
    (plain : store.holder target = target) {nodes : List Nat}
    (higher : ∀ n ∈ nodes, store.IsShown n ∧ rank target < rank n) :
    (nodes.foldl (fun store n => store.append target n) store).Graded loose rank ∧
      store.SameKinds (nodes.foldl (fun store n => store.append target n) store) ∧
      store.Keeps (nodes.foldl (fun store n => store.append target n) store) := by
  induction nodes generalizing store with
  | nil => exact ⟨graded, .refl store, .refl store⟩
  | cons first rest induction =>
      rw [List.forall_mem_cons] at higher
      have placed : store.Placed target first (store.append target first) :=
        placed_append (plain ▸ graded.holder_lt target host.isShown) higher.1.1.1
      have same := SameKinds.placed placed
      have moved := graded.move host higher.1.1 higher.1.2 (by rwa [plain])
      obtain ⟨graded', same', keeps'⟩ := induction (moved.weaken fun n _ free => free.1)
        (same.isHost_iff.mpr host) (by rw [same.holder_eq, plain]) fun n member =>
          ⟨same.isShown_iff.mpr (higher.2 n member).1, (higher.2 n member).2⟩
      exact ⟨graded', same.trans same', (Keeps.placed placed).trans keeps'⟩

/-- A node that is taken away is loose. -/
theorem detach (graded : store.Graded loose rank) (node : Nat) :
    (store.detach node).Graded (fun n => loose n ∨ n = node) rank := by
  have same := SameKinds.detach store node
  apply graded.rearrange same
  · intro a shown n member
    rw [inside, same.holder_eq] at member
    have old : n ∈ store.inside a := of_mem_children_detach member
    exact ⟨graded.rises a shown n old, graded.shown a shown n old⟩
  · intro n shown other tied
    rw [not_or] at tied
    obtain ⟨a, host, member, parent_eq⟩ := graded.attached n shown other tied.1
    refine ⟨a, host, ?_, ?_⟩
    · rw [inside, same.holder_eq]
      exact (mem_children_detach tied.2).mpr member
    · rw [parent_detach tied.2, parent_eq]

/-- A change of a node that leaves its kind and its place alone. -/
theorem retouch (graded : store.Graded loose rank) (same : store.SameKinds store')
    (children_eq : ∀ n, (store'.get n).children = (store.get n).children)
    (parent_eq : ∀ n, (store'.get n).parent = (store.get n).parent) :
    store'.Graded loose rank := by
  have inside_eq (a : Nat) : store'.inside a = store.inside a := by
    rw [inside, inside, same.holder_eq, children_eq]
  apply graded.rearrange same
  · intro a shown n member
    rw [inside_eq] at member
    exact ⟨graded.rises a shown n member, graded.shown a shown n member⟩
  · intro n shown other tied
    obtain ⟨a, host, member, child⟩ := graded.attached n shown other tied
    exact ⟨a, host, by rwa [inside_eq], by rwa [parent_eq]⟩

/-- A node of any rank above the document that is added, with nothing inside.  It is loose. -/
theorem add (graded : store.Graded loose rank) (content : Content) {level : ℚ}
    (above : rank 0 < level)
    (free : ∀ contents, content.contents? = some contents →
      contents < store.entries.size ∧ (store.get contents).children = [] ∧
        (∀ a, store.IsShown a → store.holder a ≠ contents) ∧
        (store.add content).2.element? store.entries.size = some (.html, "template")) :
    (store.add content).2.Graded (fun n => loose n ∨ n = store.entries.size)
      (Function.update rank store.entries.size level) := by
  have positive := graded.origin.1
  have get_old {n : Nat} (bound : n < store.entries.size) :
      (store.add content).2.get n = store.get n := by
    rw [get_add, if_neg bound.ne]
  have get_new : (store.add content).2.get store.entries.size = { content } := by
    rw [get_add, if_pos rfl]
  have rank_old {n : Nat} (bound : n < store.entries.size) :
      Function.update rank store.entries.size level n = rank n :=
    Function.update_of_ne bound.ne level rank
  have shown_old {n : Nat} (bound : n < store.entries.size) :
      (store.add content).2.IsShown n ↔ store.IsShown n := by
    rw [IsShown, IsShown, size_add, get_old bound]
    simp [bound, Nat.lt_succ_of_lt bound]
  have cases_of {n : Nat} (shown : (store.add content).2.IsShown n) :
      store.IsShown n ∨ n = store.entries.size := by
    have bound := shown.1
    rw [size_add] at bound
    rcases Nat.lt_succ_iff_lt_or_eq.mp bound with inside | same
    · exact .inl ((shown_old inside).mp shown)
    · exact .inr same
  have holder_old {a : Nat} (shown : store.IsShown a) :
      (store.add content).2.holder a = store.holder a := by
    rw [holder, get_old shown.1, ← holder]
  have inside_old {a : Nat} (shown : store.IsShown a) :
      (store.add content).2.inside a = store.inside a := by
    rw [inside, holder_old shown, get_old (graded.holder_lt a shown), ← inside]
  have holder_new : (store.add content).2.holder store.entries.size =
      content.contents?.getD store.entries.size := by
    rw [holder, get_new]
  have inside_new : (store.add content).2.inside store.entries.size = [] := by
    rw [inside, holder_new]
    cases contents_eq : content.contents? with
    | none =>
        rw [Option.getD_none, get_new]
    | some contents =>
        obtain ⟨bound, empty, -⟩ := free contents contents_eq
        rw [Option.getD_some, get_old bound, empty]
  have new_holder {a : Nat} (shown : store.IsShown a) :
      store.holder a ≠ (store.add content).2.holder store.entries.size := by
    rw [holder_new]
    cases contents_eq : content.contents? with
    | none => exact (graded.holder_lt a shown).ne
    | some contents => exact (free contents contents_eq).2.2.1 a shown
  refine ⟨?_, ?_, ?_, ?_, ?_, ?_, ?_, ?_⟩
  · rw [size_add, get_old positive]
    exact ⟨Nat.succ_pos _, graded.origin.2⟩
  · intro a shown n member
    rcases cases_of shown with old | rfl
    · rw [inside_old old] at member
      rw [rank_old old.1, rank_old (graded.shown a old n member).1]
      exact graded.rises a old n member
    · rw [inside_new] at member
      cases member
  · intro a shown n member
    rcases cases_of shown with old | rfl
    · rw [inside_old old] at member
      have n_shown := graded.shown a old n member
      exact (shown_old n_shown.1).mpr n_shown
    · rw [inside_new] at member
      cases member
  · intro n shown other tied
    rw [not_or] at tied
    have old := (cases_of shown).resolve_right tied.2
    obtain ⟨a, host, member, parent_eq⟩ := graded.attached n old other tied.1
    have host' : (store.add content).2.IsHost a := by
      rw [IsHost, size_add, element?, get_old host.1, ← element?]
      exact ⟨Nat.lt_succ_of_lt host.1, host.2⟩
    exact ⟨a, host', by rwa [inside_old host.isShown],
      by rwa [get_old old.1, holder_old host.isShown]⟩
  · intro n shown other
    rw [rank_old positive]
    rcases cases_of shown with old | rfl
    · rw [rank_old old.1]
      exact graded.lowest n old other
    · rw [Function.update_self]
      exact above
  · intro a shown
    rw [size_add]
    rcases cases_of shown with old | rfl
    · rw [holder_old old]
      exact Nat.lt_succ_of_lt (graded.holder_lt a old)
    · rw [holder_new]
      cases contents_eq : content.contents? with
      | none => exact Nat.lt_succ_self _
      | some contents => exact Nat.lt_succ_of_lt (free contents contents_eq).1
  · intro a b a_shown b_shown same
    rcases cases_of a_shown with a_old | rfl <;> rcases cases_of b_shown with b_old | rfl
    · rw [holder_old a_old, holder_old b_old] at same
      exact graded.holder_inj a b a_old b_old same
    · rw [holder_old a_old] at same
      exact absurd same (new_holder a_old)
    · rw [holder_old b_old] at same
      exact absurd same.symm (new_holder b_old)
    · rfl
  · intro a some
    by_cases bound : a < store.entries.size
    · rw [get_old bound] at some
      rw [element?, get_old bound, ← element?]
      exact graded.template a some
    · by_cases same : a = store.entries.size
      · subst same
        rw [get_new] at some
        obtain ⟨contents, contents_eq⟩ := Option.ne_none_iff_exists'.mp some
        exact (free contents contents_eq).2.2.2
      · rw [get_of_le (by rw [size_add]; omega)] at some
        cases some rfl

end Graded

/-! ## New elements -/

/-- Add an element that has no place yet, with a root for what a template holds. -/
def addElement (store : Store) (vocabulary : Vocabulary) (name : String)
    (attributes : List (String × String)) : Nat × Store :=
  if vocabulary = .html ∧ name = "template" then
    let (contents, store) := store.add .root
    store.add (.element vocabulary name attributes (some contents))
  else store.add (.element vocabulary name attributes none)

/-- An element that has been added to a store. -/
structure Added (store : Store) (vocabulary : Vocabulary) (name : String)
    (attributes : List (String × String)) (node : Nat) (store' : Store) : Prop where
  fresh : store.entries.size ≤ node
  bound : node < store'.entries.size
  content_eq : ∃ contents, (store'.get node).content = .element vocabulary name attributes contents
  get_eq : ∀ n, n < store.entries.size → store'.get n = store.get n

theorem added_addElement (store : Store) (vocabulary : Vocabulary) (name : String)
    (attributes : List (String × String)) :
    store.Added vocabulary name attributes (store.addElement vocabulary name attributes).1
      (store.addElement vocabulary name attributes).2 := by
  unfold addElement
  split
  · refine ⟨?_, ?_, ⟨some store.entries.size, ?_⟩, ?_⟩
    · simp [add]
    · simp [add]
    · dsimp only
      rw [get_add]
      simp [add]
    · intro n inside
      dsimp only
      rw [get_add, size_add, if_neg (by omega), get_add, if_neg (by omega)]
  · refine ⟨?_, ?_, ⟨none, ?_⟩, ?_⟩
    · simp [add]
    · simp [add]
    · rw [get_add]
      simp [add]
    · intro n inside
      rw [get_add, if_neg (by omega)]

namespace Added

variable {vocabulary : Vocabulary} {name : String} {attributes : List (String × String)}
  (added : store.Added vocabulary name attributes node store')
include added

theorem element_eq : store'.element? node = some (vocabulary, name) := by
  obtain ⟨contents, content_eq⟩ := added.content_eq
  rw [element?, content_eq]

theorem isHost : store'.IsHost node :=
  ⟨added.bound, .inr (by rw [added.element_eq]; rfl)⟩

theorem element_old (inside : n < store.entries.size) : store'.element? n = store.element? n := by
  rw [element?, element?, added.get_eq n inside]

theorem size_lt : store.entries.size < store'.entries.size :=
  Nat.lt_of_le_of_lt added.fresh added.bound

theorem host_old (host : store.IsHost n) : store'.IsHost n := by
  rw [IsHost, added.element_old host.1]
  exact ⟨host.1.trans added.size_lt, host.2⟩

theorem holder_old (inside : n < store.entries.size) : store'.holder n = store.holder n := by
  rw [holder, holder, added.get_eq n inside]

theorem keeps : store.Keeps store' := by
  intro n vocabulary name attributes contents content_eq
  have inside : n < store.entries.size := by
    by_contra beyond
    rw [get_of_le (Nat.not_lt.mp beyond)] at content_eq
    cases content_eq
  exact ⟨attributes, by rw [added.get_eq n inside, content_eq], List.Subset.refl _⟩

end Added

/-- A new element can have any rank above the document.  It is loose. -/
theorem Graded.addElement {loose : Nat → Prop} {rank : Nat → ℚ} (graded : store.Graded loose rank)
    {level : ℚ} (above : rank 0 < level) (vocabulary : Vocabulary) (name : String)
    (attributes : List (String × String)) :
    ∃ rank' : Nat → ℚ, (∀ n, n < store.entries.size → rank' n = rank n) ∧
      rank' (store.addElement vocabulary name attributes).1 = level ∧
      (store.addElement vocabulary name attributes).2.Graded
        (fun n => loose n ∨ n = (store.addElement vocabulary name attributes).1) rank' := by
  unfold Store.addElement
  split
  · rename_i template
    -- The root comes first.  No rank matters for it, as it is not shown.
    have rooted := graded.add .root above (by nofun)
    have zero : Function.update rank store.entries.size level 0 = rank 0 :=
      Function.update_of_ne graded.origin.1.ne level rank
    have above' : Function.update rank store.entries.size level 0 < level := by rwa [zero]
    have added := rooted.add (.element vocabulary name attributes (some store.entries.size))
      above' ?_
    · refine ⟨_, ?_, ?_, added.weaken ?_⟩
      · intro n inside
        rw [Function.update_of_ne (by rw [size_add]; omega), Function.update_of_ne inside.ne]
      · exact Function.update_self (β := fun _ => ℚ) _ level _
      · rintro n shown ((free | rfl) | new)
        · exact .inl free
        · have hidden := shown.2.resolve_left graded.origin.1.ne'
          rw [get_add, if_neg (by rw [size_add]; omega), get_add, if_pos rfl] at hidden
          cases hidden
        · exact .inr new
    · rintro contents ⟨⟩
      refine ⟨by rw [size_add]; omega, by rw [get_add, if_pos rfl], ?_, ?_⟩
      · intro a shown
        have inside : a < store.entries.size := by
          have bound := shown.1
          rw [size_add] at bound
          have other : a ≠ store.entries.size := by
            rintro rfl
            have hidden := shown.2.resolve_left graded.origin.1.ne'
            rw [get_add, if_pos rfl] at hidden
            cases hidden
          omega
        have old : store.IsShown a := by
          refine ⟨inside, shown.2.imp_right ?_⟩
          rw [get_add, if_neg inside.ne]
          exact id
        rw [holder, get_add, if_neg inside.ne, ← holder]
        exact (graded.holder_lt a old).ne
      · rw [element?, get_add, if_pos rfl]
        simp [template]
  · have added := graded.add (.element vocabulary name attributes none) above (by nofun)
    refine ⟨_, ?_, ?_, added⟩
    · intro n inside
      exact Function.update_of_ne inside.ne level rank
    · exact Function.update_self _ level rank

/-! ## Texts and attributes -/

/-- A change of what a node is, not of its kind. -/
theorem SameKinds.modify {change : Entry → Entry}
    (isRoot_eq : ∀ e, (change e).content.isRoot = e.content.isRoot)
    (contents_eq : ∀ e, (change e).content.contents? = e.content.contents?)
    (kind_eq : ∀ e, (change e).content.kind? = e.content.kind?) (store : Store) (node : Nat) :
    store.SameKinds (store.modify node change) := by
  refine ⟨size_modify store node change, fun n => ?_, fun n => ?_, fun n => ?_⟩
  · rw [element?_eq, element?_eq, get_modify]
    split
    · exact kind_eq _
    · rfl
  · rw [get_modify]
    split
    · exact contents_eq _
    · rfl
  · rw [get_modify]
    split
    · exact isRoot_eq _
    · rfl

section Retouched

variable (store : Store) (node : Nat)

theorem sameKinds_pushChar (c : Char) : store.SameKinds (store.pushChar node c) := by
  apply SameKinds.modify <;> intro e <;> cases content_eq : e.content <;> simp only [content_eq] <;> rfl

theorem keeps_pushChar (c : Char) : store.Keeps (store.pushChar node c) := by
  intro n vocabulary name attributes contents content_eq
  refine ⟨attributes, ?_, List.Subset.refl _⟩
  rw [pushChar, get_modify]
  split
  · simp [content_eq]
  · exact content_eq

theorem sameKinds_addAttributes (added : List (String × String)) :
    store.SameKinds (store.addAttributes node added) := by
  apply SameKinds.modify <;> intro e <;> cases content_eq : e.content <;> simp only [content_eq] <;> rfl

theorem keeps_addAttributes (added : List (String × String)) :
    store.Keeps (store.addAttributes node added) := by
  intro n vocabulary name attributes contents content_eq
  rw [addAttributes, get_modify]
  split
  · simp only [content_eq]
    exact ⟨_, rfl, List.subset_append_left _ _⟩
  · exact ⟨attributes, content_eq, List.Subset.refl _⟩

end Retouched

theorem Graded.pushChar {loose : Nat → Prop} {rank : Nat → ℚ} (graded : store.Graded loose rank)
    (node : Nat) (c : Char) : (store.pushChar node c).Graded loose rank := by
  apply graded.retouch (sameKinds_pushChar store node c) <;> intro n <;>
    rw [Store.pushChar, get_modify] <;> split
  · split <;> rfl
  · rfl
  · split <;> rfl
  · rfl

theorem Graded.addAttributes {loose : Nat → Prop} {rank : Nat → ℚ}
    (graded : store.Graded loose rank) (node : Nat) (added : List (String × String)) :
    (store.addAttributes node added).Graded loose rank := by
  apply graded.retouch (sameKinds_addAttributes store node added) <;> intro n <;>
    rw [Store.addAttributes, get_modify] <;> split
  · split <;> rfl
  · rfl
  · split <;> rfl
  · rfl

/-! ## The finished tree -/

/-- A node of the finished tree, where the nodes below it are known. -/
theorem toDom_succ (store : Store) (depth node : Nat) :
    store.toDom (depth + 1) node =
      match (store.get node).content with
      | .root => (store.get node).children.flatMap (store.toDom depth)
      | .doctype name publicId systemId => [.doctype name publicId systemId]
      | .text reversed => [.text (String.ofList reversed.reverse)]
      | .comment text => [.comment text]
      | .element vocabulary name attributes _ =>
        [.element vocabulary name attributes ((store.inside node).flatMap (store.toDom depth))] := by
  rw [toDom]
  cases content_eq : (store.get node).content with
  | element vocabulary name attributes contents =>
      cases contents <;> simp [inside, holder, content_eq, Content.contents?]
  | _ => rfl

end Store

mutual

/-- An element of the tree has the attribute. -/
def Dom.carries (entry : String × String) : Dom → Bool
  | .element _ _ attributes children =>
    attributes.contains entry || Dom.anyCarries entry children
  | .doctype .. | .text _ | .comment _ => false

/-- An element of one of the trees has the attribute. -/
def Dom.anyCarries (entry : String × String) : List Dom → Bool
  | [] => false
  | dom :: rest => dom.carries entry || Dom.anyCarries entry rest

end

theorem Dom.anyCarries_iff {entry : String × String} {doms : List Dom} :
    Dom.anyCarries entry doms = true ↔ ∃ dom ∈ doms, dom.carries entry = true := by
  induction doms with
  | nil => simp [Dom.anyCarries]
  | cons dom rest induction => simp [Dom.anyCarries, induction]

namespace Store

variable {store : Store} {entry : String × String} {node n depth : Nat}

/-- What a deep tree shows, a deeper one shows too. -/
theorem anyCarries_toDom_succ (found : Dom.anyCarries entry (store.toDom depth n) = true) :
    Dom.anyCarries entry (store.toDom (depth + 1) n) = true := by
  induction depth generalizing n with
  | zero => cases found
  | succ depth induction =>
      have deeper (nodes : List Nat)
          (found : Dom.anyCarries entry (nodes.flatMap (store.toDom depth)) = true) :
          Dom.anyCarries entry (nodes.flatMap (store.toDom (depth + 1))) = true := by
        obtain ⟨dom, member, carries⟩ := Dom.anyCarries_iff.mp found
        obtain ⟨child, child_member, dom_member⟩ := List.mem_flatMap.mp member
        obtain ⟨dom', dom_member', carries'⟩ :=
          Dom.anyCarries_iff.mp (induction (Dom.anyCarries_iff.mpr ⟨dom, dom_member, carries⟩))
        exact Dom.anyCarries_iff.mpr
          ⟨dom', List.mem_flatMap.mpr ⟨child, child_member, dom_member'⟩, carries'⟩
      rw [toDom_succ] at found ⊢
      cases content_eq : (store.get n).content with
      | root =>
          rw [content_eq] at found
          exact deeper _ found
      | element vocabulary name attributes contents =>
          rw [content_eq] at found
          simp only [Dom.anyCarries, Dom.carries, Bool.or_false, Bool.or_eq_true] at found ⊢
          exact found.imp_right (deeper _)
      | _ => simpa [content_eq] using found

theorem anyCarries_toDom_add (found : Dom.anyCarries entry (store.toDom depth n) = true)
    (more : Nat) : Dom.anyCarries entry (store.toDom (depth + more) n) = true := by
  induction more with
  | zero => exact found
  | succ more induction => exact anyCarries_toDom_succ induction

/-- A node shows what a node right inside it shows. -/
theorem anyCarries_of_inside (origin : (store.get 0).content.isRoot = true)
    (host : store.IsHost node) (member : n ∈ store.inside node)
    (found : Dom.anyCarries entry (store.toDom depth n) = true) :
    Dom.anyCarries entry (store.toDom (depth + 1) node) = true := by
  have below : Dom.anyCarries entry ((store.inside node).flatMap (store.toDom depth)) = true := by
    obtain ⟨dom, dom_member, carries⟩ := Dom.anyCarries_iff.mp found
    exact Dom.anyCarries_iff.mpr ⟨dom, List.mem_flatMap.mpr ⟨n, member, dom_member⟩, carries⟩
  rw [toDom_succ]
  rcases host.2 with rfl | element
  · cases content_eq : (store.get 0).content with
    | root =>
        have inside_eq : store.inside 0 = (store.get 0).children := by
          rw [inside, holder, content_eq]
          rfl
        rwa [inside_eq] at below
    | _ =>
        rw [content_eq] at origin
        cases origin
  · rw [element?] at element
    cases content_eq : (store.get node).content with
    | element vocabulary name attributes contents =>
        simp [Dom.anyCarries, Dom.carries, below]
    | _ =>
        rw [content_eq] at element
        cases element

/-- How many nodes have a lower rank. -/
def depthOf (store : Store) (rank : Nat → ℚ) (node : Nat) : Nat :=
  ((Finset.range store.entries.size).filter fun m => rank m < rank node).card

theorem depthOf_lt {rank : Nat → ℚ} (bound : n < store.entries.size) (below : rank n < rank m) :
    store.depthOf rank n < store.depthOf rank m := by
  apply Finset.card_lt_card
  rw [Finset.ssubset_iff_of_subset]
  · refine ⟨n, ?_, ?_⟩
    · simp [bound, below]
    · simp
  · intro other member
    rw [Finset.mem_filter] at member ⊢
    exact ⟨member.1, member.2.trans below⟩

theorem depthOf_le (store : Store) (rank : Nat → ℚ) (node : Nat) :
    store.depthOf rank node ≤ store.entries.size := by
  calc
    store.depthOf rank node ≤ (Finset.range store.entries.size).card :=
      Finset.card_filter_le _ _
    _ = store.entries.size := Finset.card_range _

/-- The document shows what any of its nodes shows. -/
theorem Graded.anyCarries_document {rank : Nat → ℚ}
    (graded : store.Graded (fun _ => False) rank) {levels : Nat} (shown : store.IsShown n)
    (enough : store.depthOf rank n ≤ levels)
    (found : Dom.anyCarries entry (store.toDom depth n) = true) :
    Dom.anyCarries entry (store.toDom (depth + levels) 0) = true := by
  induction levels generalizing n depth with
  | zero =>
      by_cases document : n = 0
      · rwa [document] at found
      obtain ⟨a, host, member, -⟩ := graded.attached n shown document id
      have lower := depthOf_lt host.1 (graded.rises a host.isShown n member)
      omega
  | succ levels induction =>
      by_cases document : n = 0
      · subst document
        exact anyCarries_toDom_add found (levels + 1)
      obtain ⟨a, host, member, -⟩ := graded.attached n shown document id
      have lower := depthOf_lt host.1 (graded.rises a host.isShown n member)
      rw [Nat.add_comm levels, ← Nat.add_assoc]
      exact induction host.isShown (by omega)
        (anyCarries_of_inside graded.origin.2 host member found)

/-- Every attribute of an element of a graded store is shown. -/
theorem Graded.finish_carries {rank : Nat → ℚ} (graded : store.Graded (fun _ => False) rank)
    {vocabulary : Vocabulary} {name : String} {attributes : List (String × String)}
    {contents : Option Nat}
    (content_eq : (store.get n).content = .element vocabulary name attributes contents)
    (member : entry ∈ attributes) : Dom.anyCarries entry store.finish = true := by
  have bound : n < store.entries.size := by
    by_contra beyond
    rw [get_of_le (Nat.not_lt.mp beyond)] at content_eq
    cases content_eq
  have shown : store.IsShown n := ⟨bound, .inr (by rw [content_eq]; rfl)⟩
  have own : Dom.anyCarries entry (store.toDom 1 n) = true := by
    rw [toDom_succ, content_eq]
    simp [Dom.anyCarries, Dom.carries, member]
  have document := graded.anyCarries_document shown (depthOf_le store rank n) own
  rwa [Nat.add_comm] at document

end Store
end Markup
end ReactiveTemplate
