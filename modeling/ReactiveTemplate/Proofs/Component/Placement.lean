import ReactiveTemplate.Proofs.Component.Slots
import ReactiveTemplate.Proofs.Tree.Alike

/-!
# Where content is placed

The content for a slot stands in the instance wherever the template has an element for that slot.
The first place takes the content itself and the others take copies, so that content keeps its ids
if no earlier place is inside a usage of another component, which may well drop it.
-/

namespace ReactiveTemplate

/-- An expression has kept its code and its location, and its id if that is asked for. -/
structure Traced (own : Bool) (e e' : Expression) : Prop where
  code : e'.code = e.code
  location : e'.location = e.location
  id : own = true → e'.id = e.id

theorem Traced.refl (own : Bool) (e : Expression) : Traced own e e := ⟨rfl, rfl, fun _ => rfl⟩

theorem Traced.trans {own : Bool} (e e' e'' : Expression) (first : Traced own e e')
    (second : Traced own e' e'') : Traced own e e'' where
  code := second.code.trans first.code
  location := second.location.trans first.location
  id asked := (second.id asked).trans (first.id asked)

/-- An expression has kept its id, its code and its location. -/
abbrev Kept : Expression → Expression → Prop := Traced true

theorem Kept.traced {e e' : Expression} (kept : Kept e e') (own : Bool) : Traced own e e' :=
  ⟨kept.code, kept.location, fun _ => kept.id rfl⟩

/-- How a slot element is reached from the root of a template. -/
inductive Spot where
  /-- Through elements and fragments only. -/
  | plain
  /-- Through another slot element, and no usage. -/
  | fallback
  /-- Through a usage of another component. -/
  | nested
  deriving DecidableEq, Repr

namespace Spot

/-- How what stands inside a slot element is reached. -/
def inSlot : Spot → Spot
  | plain | fallback => fallback
  | nested => nested

/-- No place inside a usage comes before the first plain one. -/
def clear : List Spot → Bool
  | [] | plain :: _ => true
  | fallback :: rest => clear rest
  | nested :: _ => false

theorem clear_left {first rest : List Spot} (all : clear (first ++ rest) = true) :
    clear first = true := by
  induction first with
  | nil => rfl
  | cons spot others induction =>
      cases spot with
      | plain => rfl
      | fallback => exact induction all
      | nested => cases all

theorem clear_right {first rest : List Spot} (all : clear (first ++ rest) = true)
    (unreached : plain ∉ first) : clear rest = true := by
  induction first with
  | nil => exact all
  | cons spot others induction =>
      rw [List.mem_cons, not_or] at unreached
      cases spot with
      | plain => exact (unreached.1 rfl).elim
      | fallback => exact induction all unreached.2
      | nested => cases all

end Spot

namespace Node

open Component

mutual

/-- How the elements for a slot in a node are reached, in document order. -/
def spots (slot : Option String) (around : Spot) : Node → List Spot
  | element tag attributes children _ =>
    if tag = "slot" then
      (if Slots.selected attributes = slot then [around] else []) ++
        spotsOfList slot around.inSlot children
    else spotsOfList slot around children
  | component _ _ children _ => spotsOfList slot .nested children
  | conditional _ _ consequent alternate _ =>
    spotsOfList slot around consequent ++ spotsOfList slot around alternate
  | optional _ _ branch _ => spotsOfList slot around branch
  | loop _ _ _ body _ => spotsOfList slot around body
  | text .. | expression _ | doctype .. => []

/-- How the elements for a slot in a list of nodes are reached. -/
def spotsOfList (slot : Option String) (around : Spot) : List Node → List Spot
  | [] => []
  | node :: rest => spots slot around node ++ spotsOfList slot around rest

end

mutual

/-- The nodes that are reached through elements and fragments only, and are neither. -/
def leaves : Node → List Node
  | element _ _ children _ => leavesOfList children
  | conditional _ _ consequent alternate _ => leavesOfList consequent ++ leavesOfList alternate
  | optional _ _ branch _ => leavesOfList branch
  | loop _ _ _ body _ => leavesOfList body
  | component name attributes children site => [component name attributes children site]
  | text value site => [text value site]
  | expression e => [expression e]
  | doctype name publicId systemId location => [doctype name publicId systemId location]

/-- The nodes of a list, and below, that are reached through elements and fragments only. -/
def leavesOfList : List Node → List Node
  | [] => []
  | node :: rest => leaves node ++ leavesOfList rest

end

theorem leavesOfList_append (left right : List Node) :
    leavesOfList (left ++ right) = leavesOfList left ++ leavesOfList right := by
  induction left with
  | nil => rfl
  | cons node rest induction =>
      rw [List.cons_append, leavesOfList, leavesOfList, induction, List.append_assoc]

theorem leavesOfList_singleton (node : Node) : leavesOfList [node] = leaves node :=
  List.append_nil _

theorem mem_leavesOfList {leaf : Node} {nodes : List Node} :
    leaf ∈ leavesOfList nodes ↔ ∃ node ∈ nodes, leaf ∈ leaves node := by
  induction nodes with
  | nil => simp [leavesOfList]
  | cons node rest induction => simp [leavesOfList, induction]

theorem leavesOfList_subset {nodes nodes' : List Node} (inside : nodes ⊆ nodes') :
    leavesOfList nodes ⊆ leavesOfList nodes' := by
  intro leaf member
  obtain ⟨node, own, below⟩ := mem_leavesOfList.mp member
  exact mem_leavesOfList.mpr ⟨node, inside own, below⟩

mutual

/-- Nothing inside a slot element is reached plainly, and nothing inside a usage otherwise. -/
theorem spots_inside {slot : Option String} {around spot : Spot} :
    ∀ {node : Node}, spot ∈ spots slot around node →
      (spot = .plain → around = .plain) ∧ (around = .nested → spot = .nested)
  | element tag attributes children site, member => by
      rw [spots] at member
      split at member
      · rcases List.mem_append.mp member with own | below
        · split at own
          · obtain rfl := List.mem_singleton.mp own
            exact ⟨fun plain => plain, fun nested => nested⟩
          · cases own
        · obtain ⟨plain, nested⟩ := spotsOfList_inside below
          refine ⟨fun same => ?_, fun same => nested (by rw [same]; rfl)⟩
          have inner := plain same
          cases around <;> cases inner
      · exact spotsOfList_inside member
  | component _ _ children _, member => by
      rw [spots] at member
      obtain ⟨plain, nested⟩ := spotsOfList_inside member
      exact ⟨fun same => (nomatch plain same), fun _ => nested rfl⟩
  | conditional _ _ consequent alternate _, member => by
      rw [spots, List.mem_append] at member
      rcases member with first | second
      · exact spotsOfList_inside first
      · exact spotsOfList_inside second
  | optional _ _ branch _, member | loop _ _ _ branch _, member => by
      rw [spots] at member
      exact spotsOfList_inside member
  | text .., member | expression _, member | doctype .., member => by
      rw [spots] at member
      cases member

theorem spotsOfList_inside {slot : Option String} {around spot : Spot} :
    ∀ {nodes : List Node}, spot ∈ spotsOfList slot around nodes →
      (spot = .plain → around = .plain) ∧ (around = .nested → spot = .nested)
  | node :: rest, member => by
      rw [spotsOfList, List.mem_append] at member
      rcases member with first | others
      · exact spots_inside first
      · exact spotsOfList_inside others

end

theorem plain_notMem_inSlot (slot : Option String) (around : Spot) (nodes : List Node) :
    Spot.plain ∉ spotsOfList slot around.inSlot nodes := by
  intro member
  have inner := (spotsOfList_inside member).1 rfl
  cases around <;> cases inner

/-! ## Trees that are alike -/

variable {related : Expression → Expression → Prop} {nodes nodes' : List Node}

/-- Trees that are alike stay so when less is asked of their expressions. -/
theorem Alike.mono {weaker : Expression → Expression → Prop}
    (implies : ∀ e e', related e e' → weaker e e') (alike : Alike related nodes nodes') :
    Alike weaker nodes nodes' := by
  induction alike with
  | nil => exact .nil
  | element attributes _ _ into behind =>
      exact .element (attributes.weaken implies) into behind
  | component attributes _ _ into behind =>
      exact .component (attributes.weaken implies) into behind
  | text _ behind => exact .text behind
  | expression same _ behind => exact .expression (implies _ _ same) behind
  | conditional same _ _ _ left right behind =>
      exact .conditional (implies _ _ same) left right behind
  | optional same _ _ into behind => exact .optional (implies _ _ same) into behind
  | loop same _ _ into behind => exact .loop (implies _ _ same) into behind
  | doctype _ behind => exact .doctype behind

theorem Alike.anything (alike : Alike related nodes nodes') : Alike Anything nodes nodes' :=
  alike.mono fun _ _ _ => trivial

/-- Trees that are alike have their slots in the same places. -/
theorem Alike.spots_eq (alike : Alike related nodes nodes') (slot : Option String)
    (around : Spot) : spotsOfList slot around nodes = spotsOfList slot around nodes' := by
  induction alike generalizing around with
  | nil => rfl
  | @element tag attributes attributes' _ _ _ _ _ _ same _ _ below behind =>
      have selected : Slots.selected attributes = Slots.selected attributes' := by
        rw [Slots.selected, Slots.selected, same.fixed?]
      simp only [spotsOfList, spots, selected, below, behind]
  | component _ _ _ below behind => simp only [spotsOfList, spots, below, behind]
  | text _ behind => simp only [spotsOfList, spots, behind]
  | expression _ _ behind => simp only [spotsOfList, spots, behind]
  | conditional _ _ _ _ first second behind => simp only [spotsOfList, spots, first, second, behind]
  | optional _ _ _ below behind => simp only [spotsOfList, spots, below, behind]
  | loop _ _ _ below behind => simp only [spotsOfList, spots, below, behind]
  | doctype _ behind => simp only [spotsOfList, spots, behind]

/-- A node that is a leaf corresponds to one, and so does every leaf behind it. -/
private theorem Alike.leaf_cons {leaf node node' : Node} (own : Alike related [node] [node'])
    (member : leaf ∈ [node] ++ leavesOfList nodes)
    (behind : leaf ∈ leavesOfList nodes →
      ∃ leaf' ∈ leavesOfList nodes', Alike related [leaf] [leaf']) :
    ∃ leaf' ∈ [node'] ++ leavesOfList nodes', Alike related [leaf] [leaf'] := by
  rcases List.mem_cons.mp member with rfl | rest
  · exact ⟨node', List.mem_cons_self, own⟩
  · obtain ⟨leaf', member, same⟩ := behind rest
    exact ⟨leaf', List.mem_cons_of_mem _ member, same⟩

/-- A leaf corresponds to one in a tree that is alike. -/
theorem Alike.leaf (alike : Alike related nodes nodes') {leaf : Node}
    (member : leaf ∈ leavesOfList nodes) :
    ∃ leaf' ∈ leavesOfList nodes', Alike related [leaf] [leaf'] := by
  induction alike with
  | nil => cases member
  | element _ _ _ below behind | optional _ _ _ below behind | loop _ _ _ below behind =>
      rw [leavesOfList, leaves, List.mem_append] at member
      rw [leavesOfList, leaves]
      rcases member with inside | rest
      · obtain ⟨leaf', member, same⟩ := below inside
        exact ⟨leaf', List.mem_append_left _ member, same⟩
      · obtain ⟨leaf', member, same⟩ := behind rest
        exact ⟨leaf', List.mem_append_right _ member, same⟩
  | conditional _ _ _ _ left right behind =>
      rw [leavesOfList, leaves, List.mem_append, List.mem_append] at member
      rw [leavesOfList, leaves]
      rcases member with (inside | inside) | rest
      · obtain ⟨leaf', member, same⟩ := left inside
        exact ⟨leaf', List.mem_append_left _ (List.mem_append_left _ member), same⟩
      · obtain ⟨leaf', member, same⟩ := right inside
        exact ⟨leaf', List.mem_append_left _ (List.mem_append_right _ member), same⟩
      · obtain ⟨leaf', member, same⟩ := behind rest
        exact ⟨leaf', List.mem_append_right _ member, same⟩
  | expression same _ behind => exact leaf_cons (.expression same .nil) member behind
  | component attributes children _ _ behind =>
      exact leaf_cons (.component attributes children .nil) member behind
  | text _ behind => exact leaf_cons (.text .nil) member behind
  | doctype _ behind => exact leaf_cons (.doctype .nil) member behind

theorem Alike.exists_leaf (alike : Alike related nodes nodes') {e : Expression}
    (member : .expression e ∈ leavesOfList nodes) :
    ∃ e', related e e' ∧ .expression e' ∈ leavesOfList nodes' := by
  obtain ⟨leaf', member', same⟩ := alike.leaf member
  cases same with
  | expression same _ => exact ⟨_, same, member'⟩

/-- Rebinding keeps expressions. -/
theorem rebind_alike (scope : Option Scope) (registry : Registry) (nodes : List Node) :
    Alike Kept nodes (rebind scope registry nodes).1 := by
  rw [rebind]
  split
  · exact .refl (Traced.refl true) nodes
  · exact Traversal.nodes_alike (fun _ _ => ⟨rfl, rfl, fun _ => rfl⟩) nodes registry

theorem exists_leaf_rebind {e : Expression} (scope : Option Scope) (registry : Registry)
    (member : .expression e ∈ leavesOfList nodes) :
    ∃ e', Kept e e' ∧ .expression e' ∈ leavesOfList (rebind scope registry nodes).1 :=
  (rebind_alike scope registry nodes).exists_leaf member

/-- A copy keeps expressions, but for their ids. -/
theorem rekey_alike (registry : Registry) (nodes : List Node) :
    Alike (Traced false) nodes (rekey registry nodes).1 :=
  Traversal.nodes_alike (fun _ _ => ⟨rfl, rfl, nofun⟩) nodes (registry, [])

end Node
namespace Component

open Node

variable {usage : Option Scope} {slot : Option String} {e : Expression}

/-! ## Content and its place -/

namespace Slots

variable {slots : Slots} {content : SlotContent}

theorem content?_markPlaced (slots : Slots) (other slot : Option String) :
    (slots.markPlaced other).content? slot =
      (slots.content? slot).map fun content =>
        if other = slot then { content with placed := true } else content := by
  have named (name : String) (named : List (String × SlotContent)) (key : String) :
      (named.map fun entry => (entry.1,
        if entry.1 = name then { entry.2 with placed := true } else entry.2)).lookup key =
      (named.lookup key).map fun content =>
        if name = key then { content with placed := true } else content := by
    induction named with
    | nil => rfl
    | cons entry rest induction =>
        obtain ⟨own, content⟩ := entry
        rw [List.map_cons, List.lookup_cons, List.lookup_cons]
        cases same : key == own with
        | true =>
            rw [beq_iff_eq] at same
            subst same
            simp [eq_comm]
        | false => exact induction
  cases other with
  | none =>
      cases slot with
      | none => rfl
      | some key => simp [markPlaced, content?]
  | some name =>
      cases slot with
      | none => simp [markPlaced, content?]
      | some key => simp [markPlaced, content?, named]

end Slots

mutual

theorem placeNode_content {content : SlotContent} :
    ∀ (node : Node) {p : Placement}, p.slots.content? slot = some content →
      ∃ content', (placeNode usage p node).2.slots.content? slot = some content' ∧
        content'.nodes = content.nodes
  | .element tag attributes children site, p, found => by
      rw [placeNode]
      split
      · dsimp only
        split
        · split
          · exact placeNodes_content _ found
          · refine ⟨_, (Slots.content?_markPlaced _ _ _).trans (congrArg _ found), ?_⟩
            dsimp only
            split <;> rfl
        · exact placeNodes_content _ found
      · exact placeNodes_content _ found
  | .component name attributes children site, p, found => by
      rw [placeNode]
      exact placeNodes_content _ found
  | .conditional id condition consequent alternate site, p, found => by
      rw [placeNode]
      obtain ⟨content', found', same⟩ := placeNodes_content consequent found
      obtain ⟨content'', found'', same'⟩ := placeNodes_content alternate found'
      exact ⟨content'', found'', same'.trans same⟩
  | .optional id condition branch site, p, found | .loop id condition _ branch site, p, found => by
      rw [placeNode]
      exact placeNodes_content _ found
  | .text .., p, found | .expression _, p, found | .doctype .., p, found => by
      rw [placeNode]
      exact ⟨content, found, rfl⟩

/-- Placing content changes none of it. -/
theorem placeNodes_content {content : SlotContent} :
    ∀ (nodes : List Node) {p : Placement}, p.slots.content? slot = some content →
      ∃ content', (placeNodes usage p nodes).2.slots.content? slot = some content' ∧
        content'.nodes = content.nodes
  | [], p, found => by
      rw [placeNodes]
      exact ⟨content, found, rfl⟩
  | node :: rest, p, found => by
      rw [placeNodes]
      obtain ⟨content', found', same⟩ := placeNode_content node found
      obtain ⟨content'', found'', same'⟩ := placeNodes_content rest found'
      exact ⟨content'', found'', same'.trans same⟩

end

/-- Content that is put in place has the expressions of the content, though perhaps as copies. -/
theorem insert_alike (usage around : Option Scope) (p : Placement) (slot : Option String)
    (content : SlotContent) :
    Alike (Traced false) content.nodes (p.insert usage slot content around).1 := by
  have ready : Alike (Traced false) content.nodes (content.ready p.registry).1 := by
    rw [SlotContent.ready]
    split
    · exact rekey_alike p.registry content.nodes
    · exact .refl (Traced.refl false) content.nodes
  rw [Placement.insert_eq]
  have rebound := rebind_alike around (content.ready p.registry).2 (content.ready p.registry).1
  exact ready.trans Traced.trans (rebound.mono fun e e' kept => Kept.traced kept false)

/-- Content that is put in place is shown, at least as a copy. -/
theorem insert_shows {p : Placement} {content : SlotContent} (around : Option Scope)
    (member : .expression e ∈ leavesOfList content.nodes) :
    ∃ e', Traced false e e' ∧
      .expression e' ∈ leavesOfList (p.insert usage slot content around).1 :=
  (insert_alike usage around p slot content).exists_leaf member

/-- Content that is put in place for the first time keeps its ids. -/
theorem insert_shows_own {p : Placement} {content : SlotContent} (around : Option Scope)
    (unplaced : content.placed = false) (member : .expression e ∈ leavesOfList content.nodes) :
    ∃ e', Kept e e' ∧ .expression e' ∈ leavesOfList (p.insert usage slot content around).1 := by
  rw [Placement.insert_eq, SlotContent.ready, unplaced]
  exact exists_leaf_rebind around _ member

private theorem nonempty_of_leaf {content : SlotContent}
    (member : .expression e ∈ leavesOfList content.nodes) :
    ¬ content.nodes.isEmpty = true := by
  intro empty
  rw [List.isEmpty_iff.mp empty] at member
  cases member

mutual

theorem placeNode_shows {content : SlotContent}
    (member : .expression e ∈ leavesOfList content.nodes) :
    ∀ (node : Node) {p : Placement}, p.slots.content? slot = some content →
      .plain ∈ spots slot .plain node →
      ∃ e', Traced false e e' ∧ .expression e' ∈ leavesOfList (placeNode usage p node).1
  | .element tag attributes children site, p, found, reached => by
      rw [spots] at reached
      rw [placeNode]
      split at reached
      · rename_i placeholder
        rw [if_pos placeholder]
        rcases List.mem_append.mp reached with own | inside
        · split at own
          · rename_i selected
            dsimp only
            rw [selected, found]
            dsimp only
            rw [if_neg (nonempty_of_leaf member)]
            exact insert_shows site.scope member
          · cases own
        · exact (plain_notMem_inSlot slot .plain children inside).elim
      · rename_i plain
        rw [if_neg plain]
        obtain ⟨e', same, shown⟩ := placeNodes_shows member children found reached
        rw [leavesOfList_singleton, leaves]
        exact ⟨e', same, shown⟩
  | .component name attributes children site, p, found, reached => by
      rw [spots] at reached
      cases (spotsOfList_inside reached).1 rfl
  | .conditional id condition consequent alternate site, p, found, reached => by
      rw [spots, List.mem_append] at reached
      rw [placeNode, leavesOfList_singleton, leaves]
      rcases reached with first | second
      · obtain ⟨e', same, shown⟩ := placeNodes_shows member consequent found first
        exact ⟨e', same, List.mem_append_left _ shown⟩
      · obtain ⟨content', found', unchanged⟩ := placeNodes_content consequent found
        obtain ⟨e', same, shown⟩ := placeNodes_shows (unchanged ▸ member) alternate found' second
        exact ⟨e', same, List.mem_append_right _ shown⟩
  | .optional id condition branch site, p, found, reached
  | .loop id condition _ branch site, p, found, reached => by
      rw [spots] at reached
      rw [placeNode, leavesOfList_singleton, leaves]
      exact placeNodes_shows member branch found reached
  | .text .., p, found, reached | .expression _, p, found, reached
  | .doctype .., p, found, reached => by
      rw [spots] at reached
      cases reached

/-- Content is shown where its slot is reached, at least as a copy. -/
theorem placeNodes_shows {content : SlotContent}
    (member : .expression e ∈ leavesOfList content.nodes) :
    ∀ (nodes : List Node) {p : Placement}, p.slots.content? slot = some content →
      .plain ∈ spotsOfList slot .plain nodes →
      ∃ e', Traced false e e' ∧ .expression e' ∈ leavesOfList (placeNodes usage p nodes).1
  | [], p, found, reached => by cases reached
  | node :: rest, p, found, reached => by
      rw [spotsOfList, List.mem_append] at reached
      rw [placeNodes, leavesOfList_append]
      rcases reached with first | others
      · obtain ⟨e', same, shown⟩ := placeNode_shows member node found first
        exact ⟨e', same, List.mem_append_left _ shown⟩
      · obtain ⟨content', found', unchanged⟩ := placeNode_content node found
        obtain ⟨e', same, shown⟩ := placeNodes_shows (unchanged ▸ member) rest found' others
        exact ⟨e', same, List.mem_append_right _ shown⟩

end

/-- Nothing inside a usage is clear but nothing at all. -/
private theorem nested_eq_nil {nodes : List Node}
    (clear : Spot.clear (spotsOfList slot .nested nodes) = true) :
    spotsOfList slot .nested nodes = [] := by
  cases inside : spotsOfList slot .nested nodes with
  | nil => rfl
  | cons spot rest =>
      have member : spot ∈ spotsOfList slot .nested nodes := inside ▸ List.mem_cons_self
      rw [inside, (spotsOfList_inside member).2 rfl] at clear
      cases clear

/-- Placing has shown the expression with its id, or it has come to no place for the content. -/
def ShowsOwn (slot : Option String) (content : SlotContent) (e : Expression) (spots : List Spot)
    (placed : List Node × Placement) : Prop :=
  (spots ≠ [] ∧ ∃ e', Kept e e' ∧ .expression e' ∈ leavesOfList placed.1) ∨
    (placed.2.slots.content? slot = some content ∧ .plain ∉ spots)

mutual

theorem placeNode_showsOwn {content : SlotContent} (unplaced : content.placed = false)
    (member : .expression e ∈ leavesOfList content.nodes) :
    ∀ (node : Node) {around : Spot} {p : Placement}, p.slots.content? slot = some content →
      Spot.clear (spots slot around node) = true →
      ShowsOwn slot content e (spots slot around node) (placeNode usage p node)
  | .element tag attributes children site, around, p, found, clear => by
      rw [spots] at clear ⊢
      rw [placeNode]
      split at clear
      · rename_i placeholder
        rw [if_pos placeholder, if_pos placeholder]
        have hidden := plain_notMem_inSlot slot around children
        split at clear
        · rename_i selected
          dsimp only
          rw [if_pos selected, selected, found]
          dsimp only
          rw [if_neg (nonempty_of_leaf member)]
          exact .inl ⟨by simp, insert_shows_own site.scope unplaced member⟩
        · rename_i other
          rw [if_neg other, List.nil_append]
          have inside := placeNodes_showsOwn unplaced member children found clear
          dsimp only
          split
          · split
            · exact inside
            · refine .inr ⟨?_, hidden⟩
              rw [Placement.insert_eq]
              refine (Slots.content?_markPlaced _ _ _).trans ?_
              rw [found, Option.map_some, if_neg other]
          · exact inside
      · rename_i plain
        rw [if_neg plain, if_neg plain]
        rcases placeNodes_showsOwn unplaced member children found clear with
          ⟨placed, e', kept, shown⟩ | waiting
        · refine .inl ⟨placed, e', kept, ?_⟩
          rw [leavesOfList_singleton, leaves]
          exact shown
        · exact .inr waiting
  | .component name attributes children site, around, p, found, clear => by
      rw [spots] at clear ⊢
      rw [placeNode]
      rcases placeNodes_showsOwn unplaced member children found clear with ⟨placed, -⟩ | waiting
      · exact (placed (nested_eq_nil clear)).elim
      · exact .inr waiting
  | .conditional id condition consequent alternate site, around, p, found, clear => by
      rw [spots] at clear ⊢
      rw [placeNode]
      rcases placeNodes_showsOwn unplaced member consequent found (Spot.clear_left clear) with
        ⟨placed, e', kept, shown⟩ | ⟨found', unreached⟩
      · refine .inl ⟨List.append_ne_nil_of_left_ne_nil placed _, e', kept, ?_⟩
        rw [leavesOfList_singleton, leaves]
        exact List.mem_append_left _ shown
      · rcases placeNodes_showsOwn unplaced member alternate found'
          (Spot.clear_right clear unreached) with ⟨placed, e', kept, shown⟩ | ⟨found'', unreached'⟩
        · refine .inl ⟨List.append_ne_nil_of_right_ne_nil _ placed, e', kept, ?_⟩
          rw [leavesOfList_singleton, leaves]
          exact List.mem_append_right _ shown
        · exact .inr ⟨found'', by simp [unreached, unreached']⟩
  | .optional id condition branch site, around, p, found, clear
  | .loop id condition _ branch site, around, p, found, clear => by
      rw [spots] at clear ⊢
      rw [placeNode]
      rcases placeNodes_showsOwn unplaced member branch found clear with
        ⟨placed, e', kept, shown⟩ | waiting
      · refine .inl ⟨placed, e', kept, ?_⟩
        rw [leavesOfList_singleton, leaves]
        exact shown
      · exact .inr waiting
  | .text .., around, p, found, clear | .expression _, around, p, found, clear
  | .doctype .., around, p, found, clear => by
      rw [placeNode, spots]
      exact .inr ⟨found, List.not_mem_nil⟩

/-- The first place takes the content itself. -/
theorem placeNodes_showsOwn {content : SlotContent} (unplaced : content.placed = false)
    (member : .expression e ∈ leavesOfList content.nodes) :
    ∀ (nodes : List Node) {around : Spot} {p : Placement},
      p.slots.content? slot = some content → Spot.clear (spotsOfList slot around nodes) = true →
      ShowsOwn slot content e (spotsOfList slot around nodes) (placeNodes usage p nodes)
  | [], around, p, found, clear => .inr ⟨found, List.not_mem_nil⟩
  | node :: rest, around, p, found, clear => by
      rw [spotsOfList] at clear ⊢
      rw [placeNodes]
      rcases placeNode_showsOwn unplaced member node found (Spot.clear_left clear) with
        ⟨placed, e', kept, shown⟩ | ⟨found', unreached⟩
      · refine .inl ⟨List.append_ne_nil_of_left_ne_nil placed _, e', kept, ?_⟩
        rw [leavesOfList_append]
        exact List.mem_append_left _ shown
      · have behind := Spot.clear_right clear unreached
        rcases placeNodes_showsOwn unplaced member rest found' behind with
          ⟨placed, e', kept, shown⟩ | ⟨found'', unreached'⟩
        · refine .inl ⟨List.append_ne_nil_of_right_ne_nil _ placed, e', kept, ?_⟩
          rw [leavesOfList_append]
          exact List.mem_append_right _ shown
        · exact .inr ⟨found'', by simp [unreached, unreached']⟩

end

/-- Content is shown where its slot is reached, and under its own ids if these are asked for and no
place inside a usage comes first. -/
theorem placeNodes_traced {own : Bool} {content : SlotContent} {nodes : List Node} {p : Placement}
    (unplaced : content.placed = false) (member : .expression e ∈ leavesOfList content.nodes)
    (found : p.slots.content? slot = some content)
    (reached : .plain ∈ spotsOfList slot .plain nodes)
    (clear : own = true → Spot.clear (spotsOfList slot .plain nodes) = true) :
    ∃ e', Traced own e e' ∧ .expression e' ∈ leavesOfList (placeNodes usage p nodes).1 := by
  cases own with
  | false =>
      obtain ⟨e', same, shown⟩ := placeNodes_shows member nodes found reached
      exact ⟨e', same, shown⟩
  | true =>
      rcases placeNodes_showsOwn unplaced member nodes found (clear rfl) with
        ⟨-, e', kept, shown⟩ | ⟨-, unreached⟩
      · exact ⟨e', kept, shown⟩
      · exact (unreached reached).elim

end Component
end ReactiveTemplate
