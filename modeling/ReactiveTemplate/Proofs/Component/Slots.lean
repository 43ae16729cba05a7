import Mathlib.Data.List.Flatten
import ReactiveTemplate.Component.Slots
import ReactiveTemplate.Proofs.Lookup
import ReactiveTemplate.Proofs.Tree.Rewriting

/-!
# Dividing and placing content

Dividing the children of a usage takes over their expressions and hands back those of the content.
Placing content takes over the content that stands nowhere yet and the nodes of the instance:
content that is placed for the first time keeps its ids, and content that is placed again is a copy
with ids of its own.  What the usage saw is expected of every id that is placed, and is in its
scope.
-/

namespace ReactiveTemplate
namespace Component

open Registry

/-! ## Expectations -/

private theorem met_foldl_expect {registry : Registry} {names ids : List String}
    {expectations : List (String × List String)} (met : Met registry expectations)
    (new : ∀ id ∈ ids, Met registry [(id, names)]) :
    Met registry (ids.foldl (expect names) expectations) := by
  induction ids generalizing expectations with
  | nil => exact met
  | cons id rest induction =>
      rw [List.forall_mem_cons] at new
      refine induction ?_ new.2
      intro expected member
      rw [expect, List.mem_append, List.mem_filter] at member
      rcases member with ⟨old, -⟩ | own
      · exact met expected old
      · exact new.1 expected own

/-- What the usage saw may be expected of registered nodes that see it. -/
theorem met_expectAll {registry : Registry} {scope : Option Scope} {nodes : List Node}
    {expectations : List (String × List String)} (met : Met registry expectations)
    (keeps : registry.Keeps (Node.expressionsOfList nodes))
    (covers : Node.CoversAll (Scope.names scope) nodes) :
    Met registry (expectAll scope nodes expectations) := by
  rw [Component.expectAll]
  split
  · exact met
  · refine met_foldl_expect met ?_
    intro id listed expected member
    obtain rfl := List.mem_singleton.mp member
    rw [Node.idsOfList_eq] at listed
    refine ⟨keeps.issued listed, ?_⟩
    intro entry found
    obtain ⟨e, occurs, rfl⟩ := List.mem_map.mp listed
    obtain ⟨held, registered, -, same⟩ := keeps.held e occurs
    rw [registered, Option.some_inj] at found
    rw [← found, same]
    exact Node.CoversAll.expressions nodes covers e occurs

/-! ## Content -/

/-- The expressions of content that stands nowhere yet. -/
def SlotContent.pending (content : SlotContent) : List Expression :=
  if content.placed then [] else Node.expressionsOfList content.nodes

namespace Slots

/-- The content for all slots. -/
def contents (slots : Slots) : List SlotContent := slots.default :: slots.named.map (·.2)

/-- The expressions of all content. -/
def expressions (slots : Slots) : List Expression :=
  slots.contents.flatMap fun content => Node.expressionsOfList content.nodes

/-- The expressions of all content that stands nowhere yet. -/
def pending (slots : Slots) : List Expression := slots.contents.flatMap SlotContent.pending

/-- No content has been placed. -/
def Unplaced (slots : Slots) : Prop := ∀ content ∈ slots.contents, content.placed = false

/-- All content covers some variables. -/
def Cover (seen : List String) (slots : Slots) : Prop :=
  ∀ content ∈ slots.contents, Node.CoversAll seen content.nodes

/-- All content stands inside some loops, of which it has none itself, and has each id once. -/
def Enclosed (loops : List String) (slots : Slots) : Prop :=
  ∀ content ∈ slots.contents, Node.EnclosedAll loops content.nodes ∧
    loops.Disjoint (Node.idsOfList content.nodes) ∧ (Node.idsOfList content.nodes).Nodup

variable {slots : Slots} {slot : Option String} {content : SlotContent} {seen : List String}

/-- The nodes of all content. -/
def nodes (slots : Slots) : List Node := slots.contents.flatMap SlotContent.nodes

theorem expressions_eq (slots : Slots) :
    slots.expressions = Node.expressionsOfList slots.nodes := by
  rw [expressions, nodes]
  induction slots.contents with
  | nil => rfl
  | cons content rest induction =>
      rw [List.flatMap_cons, List.flatMap_cons, Node.expressionsOfList_append, induction]

theorem cover_iff : slots.Cover seen ↔ Node.CoversAll seen slots.nodes := by
  rw [Cover, nodes]
  induction slots.contents with
  | nil => simp
  | cons content rest induction =>
      rw [List.forall_mem_cons, List.flatMap_cons, Node.coversAll_append, induction]

theorem enclosedAll_nodes {loops : List String} :
    Node.EnclosedAll loops slots.nodes ↔
      ∀ content ∈ slots.contents, Node.EnclosedAll loops content.nodes := by
  rw [nodes]
  induction slots.contents with
  | nil => simp
  | cons content rest induction =>
      rw [List.forall_mem_cons, List.flatMap_cons, Node.enclosedAll_append, induction]

/-- Registered content that stands inside loops which are no part of it. -/
theorem enclosed_of_keeps {registry : Registry} {loops : List String}
    (keeps : registry.Keeps slots.expressions) (apart : registry.Apart loops slots.expressions)
    (enclosed : Node.EnclosedAll loops slots.nodes) : slots.Enclosed loops := by
  rw [enclosedAll_nodes] at enclosed
  intro content member
  have part : (Node.expressionsOfList content.nodes).Sublist slots.expressions := by
    simpa [expressions] using
      (List.singleton_sublist.mpr member).flatMap fun content => Node.expressionsOfList content.nodes
  rw [Node.idsOfList_eq]
  exact ⟨enclosed content member,
    fun id outer own => (apart.subset part.subset id outer).2 own,
    (keeps.subperm part.subperm).distinct⟩

theorem unplacedIds_eq (slots : Slots) : slots.unplacedIds = slots.pending.map Expression.id := by
  rw [unplacedIds, pending, List.map_flatMap, contents]
  refine List.flatMap_congr fun content _ => ?_
  rw [SlotContent.pending, Node.idsOfList_eq]
  split <;> rfl

theorem Unplaced.pending_eq (unplaced : slots.Unplaced) : slots.pending = slots.expressions := by
  refine List.flatMap_congr fun content member => ?_
  rw [SlotContent.pending, unplaced content member]
  rfl

theorem mem_contents_of_content? (found : slots.content? slot = some content) :
    content ∈ slots.contents := by
  cases slot with
  | none =>
      rw [content?, Option.some_inj] at found
      exact found ▸ List.mem_cons_self
  | some name =>
      exact List.mem_cons_of_mem _ (List.mem_map.mpr ⟨(name, content), mem_of_lookup found, rfl⟩)

/-! ### Marking content as placed -/

/-- Placing content changes no node of it. -/
theorem mem_contents_markPlaced (member : content ∈ (slots.markPlaced slot).contents) :
    ∃ former ∈ slots.contents, content.nodes = former.nodes := by
  cases slot with
  | none =>
      rcases List.mem_cons.mp member with rfl | named
      · exact ⟨slots.default, List.mem_cons_self, rfl⟩
      · exact ⟨content, List.mem_cons_of_mem _ named, rfl⟩
  | some name =>
      rcases List.mem_cons.mp member with rfl | named
      · exact ⟨slots.default, List.mem_cons_self, rfl⟩
      · simp only [markPlaced, List.map_map, List.mem_map, Function.comp_apply] at named
        obtain ⟨⟨key, former⟩, listed, rfl⟩ := named
        refine ⟨former, List.mem_cons_of_mem _ (List.mem_map.mpr ⟨_, listed, rfl⟩), ?_⟩
        split <;> rfl

theorem Cover.markPlaced (cover : slots.Cover seen) : (slots.markPlaced slot).Cover seen := by
  intro content member
  obtain ⟨former, listed, same⟩ := mem_contents_markPlaced member
  exact same ▸ cover former listed

theorem Enclosed.markPlaced {loops : List String} (enclosed : slots.Enclosed loops) :
    (slots.markPlaced slot).Enclosed loops := by
  intro content member
  obtain ⟨former, listed, same⟩ := mem_contents_markPlaced member
  exact same ▸ enclosed former listed

/-- Content of one name among named content, marked as placed. -/
private def markNamed (name : String) (named : List (String × SlotContent)) :
    List SlotContent :=
  named.map fun entry => if entry.1 = name then { entry.2 with placed := true } else entry.2

private theorem pending_markNamed_sublist (name : String) (named : List (String × SlotContent)) :
    ((markNamed name named).flatMap SlotContent.pending).Sublist
      ((named.map (·.2)).flatMap SlotContent.pending) := by
  induction named with
  | nil => exact List.Sublist.slnil
  | cons entry rest induction =>
      simp only [markNamed, List.map_cons, List.flatMap_cons]
      refine List.Sublist.append ?_ induction
      split
      · exact List.nil_sublist _
      · exact List.Sublist.refl _

private theorem pending_markNamed_subperm {name : String}
    {named : List (String × SlotContent)} (found : named.lookup name = some content)
    (unplaced : content.placed = false) :
    (Node.expressionsOfList content.nodes ++
      (markNamed name named).flatMap SlotContent.pending).Subperm
      ((named.map (·.2)).flatMap SlotContent.pending) := by
  induction named with
  | nil => cases found
  | cons entry rest induction =>
      obtain ⟨key, own⟩ := entry
      by_cases same : name = key
      · subst same
        rw [List.lookup_cons_self, Option.some_inj] at found
        subst found
        refine List.Sublist.subperm ?_
        simp only [markNamed, List.map_cons, List.flatMap_cons, if_true, SlotContent.pending,
          unplaced, Bool.false_eq_true, if_false, List.nil_append]
        exact List.Sublist.append_left (pending_markNamed_sublist name rest) _
      · have other : ¬ key = name := fun equal => same equal.symm
        rw [List.lookup_cons, beq_false_of_ne same] at found
        simp only [markNamed, List.map_cons, List.flatMap_cons, if_neg other]
        refine List.Subperm.trans (List.Perm.subperm ?_)
          ((List.subperm_append_left own.pending).mpr (induction found))
        rw [← List.append_assoc, ← List.append_assoc]
        exact List.Perm.append_right _ List.perm_append_comm

private theorem markPlaced_named_map (slots : Slots) (name : String) :
    (slots.markPlaced (some name)).named.map (·.2) = markNamed name slots.named := by
  simp [markPlaced, markNamed, List.map_map, Function.comp_def]

theorem pending_markPlaced_sublist (slots : Slots) (slot : Option String) :
    (slots.markPlaced slot).pending.Sublist slots.pending := by
  cases slot with
  | none => exact List.Sublist.append_right (List.nil_sublist _) _
  | some name =>
      rw [pending, pending, contents, contents, markPlaced_named_map]
      exact List.Sublist.append_left (pending_markNamed_sublist name slots.named) _

/-- Content that is placed for the first time is no longer pending. -/
theorem pending_markPlaced_subperm (found : slots.content? slot = some content)
    (unplaced : content.placed = false) :
    (Node.expressionsOfList content.nodes ++ (slots.markPlaced slot).pending).Subperm
      slots.pending := by
  cases slot with
  | none =>
      rw [content?, Option.some_inj] at found
      subst found
      simp only [pending, contents, markPlaced, List.flatMap_cons, SlotContent.pending, unplaced,
        Bool.false_eq_true, if_true, if_false, List.nil_append]
      exact List.Subperm.refl _
  | some name =>
      rw [pending, pending, contents, contents, markPlaced_named_map, List.flatMap_cons,
        List.flatMap_cons]
      refine List.Subperm.trans (List.Perm.subperm ?_)
        ((List.subperm_append_left slots.default.pending).mpr
          (pending_markNamed_subperm found unplaced))
      rw [← List.append_assoc, ← List.append_assoc]
      exact List.Perm.append_right _ List.perm_append_comm

/-! ### Dividing children -/

/-- The slot that a child of a usage marks, and the children that it gives to the slot. -/
def marker? (parent : String) : Node → Option (String × List Node)
  | .component name _ children _ => (markedSlot? parent name).map fun slot => (slot, children)
  | _ => none

variable {definition : Definition} {scope : Option Scope} {registry after : Registry}

/-- A child is a marker for a declared slot, or it is content for the default slot. -/
theorem divide_cons {child : Node} {rest : List Node} {result : Slots × Registry}
    (ok : divide definition scope slots registry (child :: rest) = .ok result) :
    (∃ slot children, marker? definition.name child = some (slot, children) ∧
      slot ∈ definition.slots ∧
      divide definition scope
        { slots with named := addNamed slot (Node.rebind scope registry children).1 slots.named }
        (Node.rebind scope registry children).2 rest = .ok result) ∨
      (marker? definition.name child = none ∧
        divide definition scope (slots.addDefault (Node.rebind scope registry [child]).1)
          (Node.rebind scope registry [child]).2 rest = .ok result) := by
  cases child with
  | component name attributes children site =>
      rw [divide] at ok
      rw [marker?]
      cases marked : markedSlot? definition.name name with
      | none =>
          rw [marked] at ok
          exact .inr ⟨rfl, ok⟩
      | some slot =>
          rw [marked] at ok
          dsimp only at ok
          split at ok
          · rename_i declared
            exact .inl ⟨slot, children, rfl, by simpa using declared, ok⟩
          · cases ok
  | _ =>
      rw [divide] at ok
      · exact .inr ⟨rfl, ok⟩
      · rintro _ _ _ _ ⟨⟩

theorem subperm_marker? {parent slot : String} {child : Node} {children : List Node}
    (marked : marker? parent child = some (slot, children)) :
    (Node.expressionsOfList children).Subperm child.expressions := by
  cases child with
  | component name attributes below site =>
      rw [marker?, Option.map_eq_some_iff] at marked
      obtain ⟨found, -, same⟩ := marked
      cases same
      rw [Node.expressions]
      exact (List.sublist_append_right _ _).subperm
  | _ => cases marked

theorem childLists_marker? {parent slot : String} {child : Node} {children : List Node}
    (marked : marker? parent child = some (slot, children)) : children ∈ child.childLists := by
  cases child with
  | component name attributes below site =>
      rw [marker?, Option.map_eq_some_iff] at marked
      obtain ⟨found, -, same⟩ := marked
      cases same
      exact List.mem_singleton_self _
  | _ => cases marked

theorem covers_marker? {parent slot : String} {child : Node} {children : List Node}
    {required : List String} (marked : marker? parent child = some (slot, children))
    (covers : child.Covers required) : Node.CoversAll required children := by
  cases child with
  | component name attributes below site =>
      rw [marker?, Option.map_eq_some_iff] at marked
      obtain ⟨found, -, same⟩ := marked
      cases same
      rw [Node.Covers] at covers
      exact covers.2.2
  | _ => cases marked

theorem enclosed_marker? {parent slot : String} {child : Node} {children : List Node}
    {loops : List String} (marked : marker? parent child = some (slot, children))
    (enclosed : child.Enclosed loops) : Node.EnclosedAll loops children := by
  cases child with
  | component name attributes below site =>
      rw [marker?, Option.map_eq_some_iff] at marked
      obtain ⟨found, -, same⟩ := marked
      cases same
      rw [Node.Enclosed] at enclosed
      exact enclosed.2.2
  | _ => cases marked

private theorem addNamed_perm (slot : String) (nodes : List Node)
    (named : List (String × SlotContent)) :
    (((addNamed slot nodes named).map (·.2)).flatMap
      fun content => Node.expressionsOfList content.nodes).Perm
      (((named.map (·.2)).flatMap fun content => Node.expressionsOfList content.nodes) ++
        Node.expressionsOfList nodes) := by
  induction named with
  | nil => simp [addNamed]
  | cons entry rest induction =>
      obtain ⟨key, own⟩ := entry
      rw [addNamed]
      split
      · simp only [List.map_cons, List.flatMap_cons, Node.expressionsOfList_append,
          List.append_assoc]
        exact List.Perm.append_left _ List.perm_append_comm
      · simp only [List.map_cons, List.flatMap_cons, List.append_assoc]
        exact List.Perm.append_left _ induction

/-- Content of a name is there unchanged, has grown, or is new. -/
private theorem mem_addNamed {slot : String} {nodes : List Node}
    {named : List (String × SlotContent)}
    (member : content ∈ (addNamed slot nodes named).map (·.2)) :
    content ∈ named.map (·.2) ∨ content = { nodes } ∨
      ∃ former ∈ named.map (·.2), content = { former with nodes := former.nodes ++ nodes } := by
  induction named with
  | nil =>
      rw [addNamed, List.map_singleton, List.mem_singleton] at member
      exact .inr (.inl member)
  | cons entry rest induction =>
      obtain ⟨key, own⟩ := entry
      rw [addNamed] at member
      split at member
      · rcases List.mem_cons.mp member with rfl | member
        · exact .inr (.inr ⟨own, List.mem_cons_self, rfl⟩)
        · exact .inl (List.mem_cons_of_mem _ member)
      · rcases List.mem_cons.mp member with rfl | member
        · exact .inl List.mem_cons_self
        · rcases induction member with there | new | ⟨former, listed, grown⟩
          · exact .inl (List.mem_cons_of_mem _ there)
          · exact .inr (.inl new)
          · exact .inr (.inr ⟨former, List.mem_cons_of_mem _ listed, grown⟩)

theorem expressions_addNamed (slots : Slots) (slot : String) (nodes : List Node) :
    ({ slots with named := addNamed slot nodes slots.named } : Slots).expressions.Perm
      (slots.expressions ++ Node.expressionsOfList nodes) := by
  simp only [expressions, contents, List.flatMap_cons, List.append_assoc]
  exact List.Perm.append_left _ (addNamed_perm slot nodes slots.named)

theorem expressions_addDefault (slots : Slots) (nodes : List Node) :
    (slots.addDefault nodes).expressions.Perm
      (slots.expressions ++ Node.expressionsOfList nodes) := by
  simp only [expressions, contents, addDefault, List.flatMap_cons, Node.expressionsOfList_append,
    List.append_assoc]
  exact List.Perm.append_left _ List.perm_append_comm

/-- Whatever holds of content and of new nodes that are added to it holds of all content. -/
theorem forall_contents_addNamed {holds : SlotContent → Prop} {slot : String}
    {nodes : List Node} (there : ∀ content ∈ slots.contents, holds content)
    (new : holds { nodes })
    (grown : ∀ content, holds content → holds { content with nodes := content.nodes ++ nodes }) :
    ∀ content ∈ ({ slots with named := addNamed slot nodes slots.named } : Slots).contents,
      holds content := by
  intro content member
  rcases List.mem_cons.mp member with rfl | named
  · exact there _ List.mem_cons_self
  · rcases mem_addNamed named with old | rfl | ⟨former, listed, rfl⟩
    · exact there content (List.mem_cons_of_mem _ old)
    · exact new
    · exact grown former (there former (List.mem_cons_of_mem _ listed))

theorem forall_contents_addDefault {holds : SlotContent → Prop} {nodes : List Node}
    (there : ∀ content ∈ slots.contents, holds content)
    (grown : ∀ content, holds content → holds { content with nodes := content.nodes ++ nodes }) :
    ∀ content ∈ (slots.addDefault nodes).contents, holds content := by
  intro content member
  rcases List.mem_cons.mp member with rfl | named
  · exact grown _ (there _ List.mem_cons_self)
  · exact there content (List.mem_cons_of_mem _ named)

/-- Dividing takes over the children and hands back the content. -/
theorem divide_pass {children : List Node} {result : Slots}
    (keeps : registry.Keeps (slots.expressions ++ Node.expressionsOfList children))
    (ok : divide definition scope slots registry children = .ok (result, after)) :
    Pass Grown registry (slots.expressions ++ Node.expressionsOfList children) after
      result.expressions := by
  induction children generalizing slots registry with
  | nil =>
      cases ok
      exact (Pass.refl keeps).drop (List.sublist_append_left _ _).subperm
  | cons child rest induction =>
      -- the nodes that `child` supplies are rebound and join the content
      have joined : ∀ {nodes : List Node} {slots' : Slots},
          (Node.expressionsOfList nodes).Subperm child.expressions →
          slots'.expressions.Perm
            (slots.expressions ++
              Node.expressionsOfList (Node.rebind scope registry nodes).1) →
          divide definition scope slots' (Node.rebind scope registry nodes).2 rest =
            .ok (result, after) →
          Pass Grown registry (slots.expressions ++ Node.expressionsOfList (child :: rest)) after
            result.expressions := by
        intro nodes slots' part same ok
        have taken : (slots.expressions ++ (Node.expressionsOfList nodes ++
            Node.expressionsOfList rest)).Subperm
            (slots.expressions ++ Node.expressionsOfList (child :: rest)) := by
          rw [Node.expressionsOfList]
          exact (List.subperm_append_left _).mpr ((List.subperm_append_right _).mpr part)
        have kept := keeps.subperm taken
        have rebound := ((Node.rebind_pass scope kept.right.left).beside_left kept.right
          ).beside_right kept
        have sorted := rebound.perm
          (List.append_assoc _ _ _ ▸ same.symm.append_right (Node.expressionsOfList rest))
        exact (sorted.trans (induction sorted.keeps ok)).of_subset taken.subset
      rcases divide_cons ok with ⟨slot, below, marked, -, ok⟩ | ⟨-, ok⟩
      · exact joined (subperm_marker? marked) (expressions_addNamed slots slot _) ok
      · refine joined ?_ (expressions_addDefault slots _) ok
        rw [Node.expressionsOfList_singleton]

theorem divide_unplaced {children : List Node} {result : Slots} (unplaced : slots.Unplaced)
    (ok : divide definition scope slots registry children = .ok (result, after)) :
    result.Unplaced := by
  induction children generalizing slots registry with
  | nil =>
      cases ok
      exact unplaced
  | cons child rest induction =>
      rcases divide_cons ok with ⟨slot, below, -, -, ok⟩ | ⟨-, ok⟩
      · exact induction (forall_contents_addNamed unplaced rfl fun _ same => same) ok
      · exact induction (forall_contents_addDefault unplaced fun _ same => same) ok

/-- All content sees what the usage sees. -/
theorem divide_cover {children : List Node} {result : Slots}
    (covers : Node.CoversAll [] children) (cover : slots.Cover (Scope.names scope))
    (ok : divide definition scope slots registry children = .ok (result, after)) :
    result.Cover (Scope.names scope) := by
  induction children generalizing slots registry with
  | nil =>
      cases ok
      exact cover
  | cons child rest induction =>
      rw [Node.coversAll_cons] at covers
      have grown : ∀ {nodes : List Node}, Node.CoversAll [] nodes → ∀ content : SlotContent,
          Node.CoversAll (Scope.names scope) content.nodes →
          Node.CoversAll (Scope.names scope)
            (content.nodes ++ (Node.rebind scope registry nodes).1) := by
        intro nodes seen content own
        exact Node.coversAll_append.mpr ⟨own, Node.rebind_covers scope registry seen⟩
      rcases divide_cons ok with ⟨slot, below, marked, -, ok⟩ | ⟨-, ok⟩
      · have seen : Node.CoversAll [] below := covers_marker? marked covers.1
        exact induction covers.2 (forall_contents_addNamed cover
          (Node.rebind_covers scope registry seen) (grown seen)) ok
      · have seen : Node.CoversAll [] [child] := by simpa using covers.1
        exact induction covers.2 (forall_contents_addDefault cover (grown seen)) ok

/-- All content stands inside the loops around the usage. -/
theorem divide_enclosed {children : List Node} {result : Slots} {loops : List String}
    (inside : Scope.Inside loops scope) (enclosed : Node.EnclosedAll loops children)
    (own : ∀ content ∈ slots.contents, Node.EnclosedAll loops content.nodes)
    (ok : divide definition scope slots registry children = .ok (result, after)) :
    ∀ content ∈ result.contents, Node.EnclosedAll loops content.nodes := by
  induction children generalizing slots registry with
  | nil =>
      cases ok
      exact own
  | cons child rest induction =>
      rw [Node.enclosedAll_cons] at enclosed
      have grown : ∀ {nodes : List Node}, Node.EnclosedAll loops nodes → ∀ content : SlotContent,
          Node.EnclosedAll loops content.nodes →
          Node.EnclosedAll loops (content.nodes ++ (Node.rebind scope registry nodes).1) := by
        intro nodes new content own
        exact Node.enclosedAll_append.mpr ⟨own, Node.rebind_enclosed scope registry inside new⟩
      rcases divide_cons ok with ⟨slot, below, marked, -, ok⟩ | ⟨-, ok⟩
      · have new : Node.EnclosedAll loops below := enclosed_marker? marked enclosed.1
        exact induction enclosed.2 (forall_contents_addNamed own
          (Node.rebind_enclosed scope registry inside new) (grown new)) ok
      · have new : Node.EnclosedAll loops [child] := by simpa using enclosed.1
        exact induction enclosed.2 (forall_contents_addDefault own (grown new)) ok

end Slots

/-! ## Placing content -/

/-- The nodes that stand for content: the content itself the first time, then a copy. -/
def SlotContent.ready (content : SlotContent) (registry : Registry) : List Node × Registry :=
  if content.placed then Node.rekey registry content.nodes else (content.nodes, registry)

theorem SlotContent.ready_covers {content : SlotContent} {seen : List String}
    (registry : Registry) (covers : Node.CoversAll seen content.nodes) :
    Node.CoversAll seen (content.ready registry).1 := by
  rw [SlotContent.ready]
  split
  · exact Node.rekey_covers registry covers
  · exact covers

theorem SlotContent.ready_enclosed {content : SlotContent} {loops : List String}
    (registry : Registry) (apart : loops.Disjoint (Node.idsOfList content.nodes))
    (distinct : (Node.idsOfList content.nodes).Nodup)
    (enclosed : Node.EnclosedAll loops content.nodes) :
    Node.EnclosedAll loops (content.ready registry).1 := by
  rw [SlotContent.ready]
  split
  · exact Node.rekey_enclosed registry apart distinct enclosed
  · exact enclosed

namespace Placement

variable {usage : Option Scope} {p : Placement} {slot : Option String} {content : SlotContent}

theorem insert_eq (usage : Option Scope) (p : Placement) (slot : Option String)
    (content : SlotContent) (around : Option Scope) :
    p.insert usage slot content around =
      let (nodes, registry) := content.ready p.registry
      ((Node.rebind around registry nodes).1,
        { slots := p.slots.markPlaced slot
          registry := (Node.rebind around registry nodes).2
          expectations := expectAll usage nodes p.expectations }) := rfl

/-- Content is ready with its own ids the first time, and with new ids after that. -/
theorem ready_pass (found : p.slots.content? slot = some content)
    (keeps : p.registry.Keeps p.slots.pending) :
    Pass Grown p.registry p.slots.pending (content.ready p.registry).2
      ((p.slots.markPlaced slot).pending ++
        Node.expressionsOfList (content.ready p.registry).1) := by
  rw [SlotContent.ready]
  split
  · have fresh : Pass Grown p.registry [] (Node.rekey p.registry content.nodes).2 _ :=
      (Node.rekey_pass keeps.reachable content.nodes).of_nil
    have kept : p.registry.Keeps (p.slots.pending ++ []) := by rwa [List.append_nil]
    have copied := fresh.beside_right kept
    rw [List.append_nil] at copied
    exact copied.drop ((List.subperm_append_right _).mpr
      (Slots.pending_markPlaced_sublist p.slots slot).subperm)
  · rename_i unplaced
    rw [Bool.not_eq_true] at unplaced
    exact ((Pass.refl keeps).drop
      (Slots.pending_markPlaced_subperm found unplaced)).perm List.perm_append_comm

/-- The content that is pending is to be put into the tree, sees what the usage saw, and stands
inside the loops around the usage. -/
def stage (usage : Option Scope) (p : Placement) : Stage where
  registry := p.registry
  held := p.slots.pending
  expectations := p.expectations
  seen := p.slots.Cover (Scope.names usage)
  around := fun loops => p.slots.Enclosed loops

/-- Content in the place of a slot that stands in the scope `around`. -/
theorem insert_leads {around : Option Scope} {outer : List Node}
    (found : p.slots.content? slot = some content)
    (covers : ∀ required, Node.CoversAll required outer → required ⊆ Scope.names around)
    (encloses : ∀ loops, Node.EnclosedAll loops outer → Scope.Inside loops around) :
    Stage.Leads Grown (p.stage usage) outer
      ((p.insert usage slot content around).2.stage usage)
      (p.insert usage slot content around).1 := by
  rw [insert_eq]
  refine ⟨?_, fun cover => cover.markPlaced, ?_, ?_, fun _ enclosed => enclosed.markPlaced, ?_⟩
  · intro keeps
    have ready := ready_pass found keeps.left
    have rebound := (Node.rebind_pass around ready.keeps.right).beside_right ready.keeps
    exact (ready.trans rebound).of_subset (List.subset_append_left _ _)
  · intro cover required outside
    have own := cover content (Slots.mem_contents_of_content? found)
    have rebound := Node.rebind_covers around (content.ready p.registry).2
      (SlotContent.ready_covers p.registry own)
    exact Node.CoversAll.mono
      (List.Subset.trans (covers required outside) (List.subset_append_right _ _)) _ rebound
  · intro cover keeps _ met
    have own := cover content (Slots.mem_contents_of_content? found)
    have ready := ready_pass found keeps.left
    have expected := met_expectAll (met.pass ready) ready.keeps.right
      (SlotContent.ready_covers p.registry own)
    exact expected.pass (Node.rebind_pass around ready.keeps.right)
  · intro loops inner stands part _ _ outside
    obtain ⟨own, apart, distinct⟩ := stands content (Slots.mem_contents_of_content? found)
    have ready := SlotContent.ready_enclosed p.registry apart distinct own
    exact Node.rebind_enclosed around _ (encloses inner outside)
      (Node.EnclosedAll.mono part _ ready)

end Placement

mutual

theorem placeNode_leads (usage : Option Scope) :
    ∀ (node : Node) (p : Placement), Stage.Leads Grown (p.stage usage) [node]
      ((placeNode usage p node).2.stage usage) (placeNode usage p node).1
  | .element tag attributes children site, p => by
      have below := placeNodes_leads usage children p
      rw [placeNode]
      split
      · dsimp only
        split
        · rename_i content found
          split
          · exact below.unwrap
          · refine Placement.insert_leads found ?_ ?_
            · intro required covers
              rw [Node.coversAll_cons, Node.Covers] at covers
              exact covers.1.1
            · intro loops enclosed
              rw [Node.enclosedAll_cons, Node.Enclosed] at enclosed
              exact enclosed.1.1
        · exact below.unwrap
      · exact below.element tag attributes site
  | .component name attributes children site, p => by
      rw [placeNode]
      exact (placeNodes_leads usage children p).component name attributes site
  | .conditional id condition consequent alternate site, p => by
      rw [placeNode]
      exact (placeNodes_leads usage consequent p).conditional id condition site
        (placeNodes_leads usage alternate (placeNodes usage p consequent).2)
  | .optional id condition branch site, p => by
      rw [placeNode]
      exact (placeNodes_leads usage branch p).optional id condition site
  | .loop id source binder body site, p => by
      rw [placeNode]
      exact (placeNodes_leads usage body p).loop id source binder site
  | .text .., p | .expression _, p | .doctype .., p => by
      rw [placeNode]
      exact .refl _ _

/-- Placing content in an instance leads to nodes that agree with the registry again. -/
theorem placeNodes_leads (usage : Option Scope) :
    ∀ (nodes : List Node) (p : Placement), Stage.Leads Grown (p.stage usage) nodes
      ((placeNodes usage p nodes).2.stage usage) (placeNodes usage p nodes).1
  | [], p => by
      rw [placeNodes]
      exact .refl _ _
  | node :: rest, p => by
      rw [placeNodes]
      exact (placeNode_leads usage node p).append
        (placeNodes_leads usage rest (placeNode usage p node).2)

end

end Component
end ReactiveTemplate
