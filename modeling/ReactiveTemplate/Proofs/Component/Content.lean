import ReactiveTemplate.Proofs.Component.Placement
import ReactiveTemplate.Proofs.Component.Resolution
import ReactiveTemplate.Proofs.Fragment.Alike

/-!
# What becomes of supplied content

The expressions that a usage supplies for a slot are followed on their way: they are divided among
the slots, resolved, placed in a copy of the definition, and resolved with it once more.
-/

namespace ReactiveTemplate
namespace Component

open Node

variable {slot : Option String} {e : Expression}

/-! ## Content and its source -/

namespace Slots

variable {slots : Slots} {definition : Definition} {scope : Option Scope}
variable {registry after : Registry} {parent name : String}

/-- The slot that a name stands for. -/
def target (name : String) : Option String :=
  if name = Definition.defaultSlot then none else some name

/-- What a child supplies for a slot by its name: itself if it is no marker and the slot is the
default slot, and what is inside if it is a marker for the slot and this is another one. -/
def share (parent name : String) (child : Node) : List Node :=
  match marker? parent child with
  | some (slot, below) => if slot = name ∧ name ≠ Definition.defaultSlot then below else []
  | none => if name = Definition.defaultSlot then [child] else []

/-- What children supply for a slot by its name. -/
def supplied (parent name : String) (children : List Node) : List Node :=
  children.flatMap (share parent name)

/-- The nodes that are content for a slot. -/
def nodesFor (slots : Slots) (slot : Option String) : List Node :=
  ((slots.content? slot).map SlotContent.nodes).getD []

theorem content?_of_leaf {leaf : Node} (member : leaf ∈ leavesOfList (slots.nodesFor slot)) :
    ∃ content, slots.content? slot = some content ∧ leaf ∈ leavesOfList content.nodes := by
  rw [nodesFor] at member
  cases found : slots.content? slot with
  | none =>
      rw [found] at member
      cases member
  | some content =>
      rw [found] at member
      exact ⟨content, rfl, member⟩

theorem lookup_addNamed_self (name : String) (nodes : List Node)
    (named : List (String × SlotContent)) :
    ((addNamed name nodes named).lookup name).map SlotContent.nodes =
      some (((named.lookup name).map SlotContent.nodes).getD [] ++ nodes) := by
  induction named with
  | nil => simp [addNamed]
  | cons entry rest induction =>
      obtain ⟨key, own⟩ := entry
      rw [addNamed]
      by_cases same : key = name
      · subst same
        rw [if_pos rfl, List.lookup_cons_self, List.lookup_cons_self]
        rfl
      · have differs : (name == key) = false := by simpa using fun equal => same equal.symm
        rw [if_neg same, List.lookup_cons, List.lookup_cons, differs]
        exact induction

theorem lookup_addNamed_of_ne {name key : String} (nodes : List Node)
    (named : List (String × SlotContent)) (other : key ≠ name) :
    (addNamed name nodes named).lookup key = named.lookup key := by
  have differs : (key == name) = false := by simpa using other
  induction named with
  | nil => simp [addNamed, List.lookup_cons, differs]
  | cons entry rest induction =>
      obtain ⟨own, content⟩ := entry
      rw [addNamed]
      split
      · rename_i same
        subst same
        rw [List.lookup_cons, List.lookup_cons, differs]
      · rw [List.lookup_cons, List.lookup_cons, induction]

/-- Nodes that are added for a slot follow the content for it, and no other content changes. -/
theorem nodesFor_addNamed (name : String) (nodes : List Node) (slots : Slots)
    (slot : Option String) :
    nodesFor { slots with named := addNamed name nodes slots.named } slot =
      slots.nodesFor slot ++ if slot = some name then nodes else [] := by
  cases slot with
  | none => exact (List.append_nil _).symm
  | some key =>
      rw [nodesFor, nodesFor, content?, content?]
      by_cases same : key = name
      · subst same
        rw [lookup_addNamed_self, if_pos rfl]
        rfl
      · rw [lookup_addNamed_of_ne nodes slots.named same, if_neg (by simpa using same),
          List.append_nil]

theorem nodesFor_addDefault (nodes : List Node) (slots : Slots) (slot : Option String) :
    (slots.addDefault nodes).nodesFor slot =
      slots.nodesFor slot ++ if slot = none then nodes else [] := by
  cases slot with
  | none => rfl
  | some key => exact (List.append_nil _).symm

/-- What is supplied for a slot becomes the content for it, in the scope of the usage. -/
theorem divide_supplied {children : List Node} {result : Slots} (name : String)
    (ok : divide definition scope slots registry children = .ok (result, after)) :
    ∃ copy, Alike Kept (supplied definition.name name children) copy ∧
      result.nodesFor (target name) = slots.nodesFor (target name) ++ copy := by
  induction children generalizing slots registry with
  | nil =>
      cases ok
      exact ⟨[], .nil, (List.append_nil _).symm⟩
  | cons child rest induction =>
      rw [supplied, List.flatMap_cons, share]
      rcases divide_cons ok with ⟨marked, below, marker, -, ok⟩ | ⟨marker, ok⟩
      · obtain ⟨copy, alike, same⟩ := induction ok
        rw [nodesFor_addNamed] at same
        rw [marker, target]
        rw [target] at same
        dsimp only
        by_cases isDefault : name = Definition.defaultSlot
        · rw [if_pos isDefault, if_neg (by simp), List.append_nil] at same
          rw [if_neg (by simp [isDefault]), if_pos isDefault]
          exact ⟨copy, alike, same⟩
        · rw [if_neg isDefault] at same ⊢
          by_cases selected : marked = name
          · subst selected
            rw [if_pos rfl, List.append_assoc] at same
            rw [if_pos ⟨rfl, isDefault⟩]
            exact ⟨_, (rebind_alike scope registry below).append alike, same⟩
          · rw [if_neg (by simpa using Ne.symm selected), List.append_nil] at same
            rw [if_neg (by simp [selected])]
            exact ⟨copy, alike, same⟩
      · obtain ⟨copy, alike, same⟩ := induction ok
        rw [nodesFor_addDefault] at same
        rw [marker, target]
        rw [target] at same
        dsimp only
        by_cases isDefault : name = Definition.defaultSlot
        · rw [if_pos isDefault, if_pos rfl, List.append_assoc] at same
          rw [if_pos isDefault, if_pos isDefault]
          exact ⟨_, (rebind_alike scope registry [child]).append alike, same⟩
        · rw [if_neg isDefault, if_neg (by simp), List.append_nil] at same
          rw [if_neg isDefault, if_neg isDefault]
          exact ⟨copy, alike, same⟩

variable {related : Expression → Expression → Prop}

theorem share_alike {child child' : Node} (alike : Alike related [child] [child'])
    (parent name : String) :
    Alike related (share parent name child) (share parent name child') := by
  have whole := alike
  -- only usages are markers, and usages that are alike have the same name
  cases alike with
  | @component marker _ _ _ _ _ _ _ _ _ below _ =>
      simp only [share, marker?]
      cases markedSlot? parent marker with
      | none =>
          simp only [Option.map_none]
          split
          · exact whole
          · exact .nil
      | some slot =>
          simp only [Option.map_some]
          split
          · exact below
          · exact .nil
  | _ =>
      simp only [share, marker?]
      split
      · exact whole
      · exact .nil

theorem supplied_alike {children children' : List Node} (alike : Alike related children children')
    (parent name : String) :
    Alike related (supplied parent name children) (supplied parent name children') := by
  induction alike with
  | nil => exact .nil
  | element attributes below _ _ behind =>
      exact (share_alike (.element attributes below .nil) parent name).append behind
  | component attributes below _ _ behind =>
      exact (share_alike (.component attributes below .nil) parent name).append behind
  | text _ behind => exact (share_alike (.text .nil) parent name).append behind
  | expression same _ behind =>
      exact (share_alike (.expression same .nil) parent name).append behind
  | conditional same left right _ _ _ behind =>
      exact (share_alike (.conditional same left right .nil) parent name).append behind
  | optional same below _ _ behind =>
      exact (share_alike (.optional same below .nil) parent name).append behind
  | loop same below _ _ behind =>
      exact (share_alike (.loop same below .nil) parent name).append behind
  | doctype _ behind => exact (share_alike (.doctype .nil) parent name).append behind

end Slots

/-! ## Content and resolution -/

section

variable {one : Usage → Action (List Node)} {progress progress' : Progress}

mutual

/-- Every leaf is resolved at some point, and what it is resolved to is reached again. -/
theorem resolveNode_leaf {leaf : Node} :
    ∀ (node : Node) {progress : Progress} {result : List Node} {progress' : Progress},
      leaf ∈ leaves node → resolveNode one node progress = .ok (result, progress') →
      ∃ before made after, resolveNode one leaf before = .ok (made, after) ∧
        leavesOfList made ⊆ leavesOfList result
  | .component .., progress, result, progress', member, ok
  | .text .., progress, result, progress', member, ok
  | .expression _, progress, result, progress', member, ok
  | .doctype .., progress, result, progress', member, ok => by
      rw [leaves, List.mem_singleton] at member
      subst member
      exact ⟨progress, result, progress', ok, List.Subset.refl _⟩
  | .element tag attributes children site, progress, result, progress', member, ok => by
      rw [leaves] at member
      simp only [resolveNode, bind_eq_ok] at ok
      obtain ⟨⟨children', last⟩, below, ok⟩ := ok
      cases ok
      rw [leavesOfList_singleton, leaves]
      exact resolveNodes_leaf children member below
  | .conditional id condition consequent alternate site, progress, result, progress', member,
    ok => by
      rw [leaves, List.mem_append] at member
      simp only [resolveNode, bind_eq_ok] at ok
      obtain ⟨⟨consequent', middle⟩, first, ⟨alternate', last⟩, second, ok⟩ := ok
      cases ok
      rw [leavesOfList_singleton, leaves]
      rcases member with left | right
      · obtain ⟨before, made, after, made_ok, inside⟩ := resolveNodes_leaf consequent left first
        exact ⟨before, made, after, made_ok, List.subset_append_of_subset_left _ inside⟩
      · obtain ⟨before, made, after, made_ok, inside⟩ := resolveNodes_leaf alternate right second
        exact ⟨before, made, after, made_ok, List.subset_append_of_subset_right _ inside⟩
  | .optional id condition branch site, progress, result, progress', member, ok
  | .loop id condition _ branch site, progress, result, progress', member, ok => by
      rw [leaves] at member
      simp only [resolveNode, bind_eq_ok] at ok
      obtain ⟨⟨branch', last⟩, below, ok⟩ := ok
      cases ok
      rw [leavesOfList_singleton, leaves]
      exact resolveNodes_leaf branch member below

theorem resolveNodes_leaf {leaf : Node} :
    ∀ (nodes : List Node) {progress : Progress} {result : List Node} {progress' : Progress},
      leaf ∈ leavesOfList nodes → resolveNodes one nodes progress = .ok (result, progress') →
      ∃ before made after, resolveNode one leaf before = .ok (made, after) ∧
        leavesOfList made ⊆ leavesOfList result
  | [], progress, result, progress', member, ok => by cases member
  | node :: rest, progress, result, progress', member, ok => by
      rw [leavesOfList, List.mem_append] at member
      simp only [resolveNodes, bind_eq_ok] at ok
      obtain ⟨⟨first', middle⟩, first, ⟨rest', last⟩, second, ok⟩ := ok
      cases ok
      rw [leavesOfList_append]
      rcases member with own | behind
      · obtain ⟨before, made, after, made_ok, inside⟩ := resolveNode_leaf node own first
        exact ⟨before, made, after, made_ok, List.subset_append_of_subset_left _ inside⟩
      · obtain ⟨before, made, after, made_ok, inside⟩ := resolveNodes_leaf rest behind second
        exact ⟨before, made, after, made_ok, List.subset_append_of_subset_right _ inside⟩

end

/-- Expressions that are shown stay. -/
theorem resolveNodes_shown {nodes result : List Node}
    (member : .expression e ∈ leavesOfList nodes)
    (ok : resolveNodes one nodes progress = .ok (result, progress')) :
    .expression e ∈ leavesOfList result := by
  obtain ⟨before, made, after, made_ok, inside⟩ := resolveNodes_leaf nodes member ok
  rw [resolveNode] at made_ok
  cases made_ok
  exact inside (List.mem_singleton_self _)

/-! ### Content for named slots -/

/-- The names of slots are distinct. -/
def Slots.Keyed (slots : Slots) : Prop := (slots.named.map (·.1)).Nodup

private theorem keys_addNamed (name : String) (nodes : List Node)
    (named : List (String × SlotContent)) :
    (Slots.addNamed name nodes named).map (·.1) =
      if name ∈ named.map (·.1) then named.map (·.1) else named.map (·.1) ++ [name] := by
  induction named with
  | nil => rfl
  | cons entry rest induction =>
      obtain ⟨own, content⟩ := entry
      rw [Slots.addNamed]
      by_cases same : own = name
      · simp [same]
      · have other : ¬ name = own := fun equal => same equal.symm
        rw [if_neg same, List.map_cons, induction]
        by_cases there : name ∈ rest.map (·.1)
        · rw [if_pos there, if_pos (by simp [there])]
          rfl
        · rw [if_neg there, if_neg (by simpa [other] using there)]
          rfl

theorem Slots.divide_keyed {slots : Slots} {definition : Definition} {scope : Option Scope}
    {registry after : Registry} {children : List Node} {result : Slots} (keyed : slots.Keyed)
    (ok : divide definition scope slots registry children = .ok (result, after)) :
    result.Keyed := by
  induction children generalizing slots registry with
  | nil =>
      cases ok
      exact keyed
  | cons child rest induction =>
      rcases divide_cons ok with ⟨name, below, -, -, ok⟩ | ⟨-, ok⟩
      · refine induction ?_ ok
        rw [Keyed, keys_addNamed]
        split
        · exact keyed
        · rename_i new
          exact List.nodup_append.mpr ⟨keyed, List.nodup_singleton _, fun key there other last => by
            rw [List.mem_singleton.mp last]
            rintro rfl
            exact new there⟩
      · have kept : (slots.addDefault (rebind scope registry [child]).1).Keyed := keyed
        exact induction kept ok

private theorem resolveNamed_nodes {named named' : List (String × SlotContent)} (key : String)
    (ok : resolveNamed (resolveNodes one) named progress = .ok (named', progress')) :
    ∃ before after,
      resolveNodes one (((named.lookup key).map SlotContent.nodes).getD []) before =
        .ok (((named'.lookup key).map SlotContent.nodes).getD [], after) := by
  induction named generalizing progress named' with
  | nil =>
      cases ok
      exact ⟨progress', progress', rfl⟩
  | cons entry rest induction =>
      obtain ⟨own, content⟩ := entry
      simp only [resolveNamed, bind_eq_ok] at ok
      obtain ⟨⟨nodes, middle⟩, first, ⟨others, last⟩, second, ok⟩ := ok
      cases ok
      rw [List.lookup_cons, List.lookup_cons]
      cases key == own with
      | true => exact ⟨progress, middle, first⟩
      | false => exact induction second

/-- The content for each slot is resolved at some point. -/
theorem resolveSlots_nodesFor {slots slots' : Slots} (keyed : slots.Keyed) (slot : Option String)
    (ok : resolveSlots (resolveNodes one) slots progress = .ok (slots', progress')) :
    ∃ before after,
      resolveNodes one (slots.nodesFor slot) before = .ok (slots'.nodesFor slot, after) := by
  simp only [resolveSlots, bind_eq_ok] at ok
  obtain ⟨⟨nodes, middle⟩, first, ⟨named, last⟩, second, ok⟩ := ok
  cases ok
  cases slot with
  | none => exact ⟨progress, middle, first⟩
  | some key =>
      have order := List.mergeSort_perm slots.named fun a b => decide (a.1 ≤ b.1)
      rw [Slots.nodesFor, Slots.content?, lookup_perm keyed order.symm key]
      exact resolveNamed_nodes key second

end

/-! ## Content and instances -/

variable {context : Context} {definition : Definition} {progress progress' : Progress}
variable {nodes template : List Node} {start registry after : Registry}

theorem forward_shown {location : Location} {forwarded : List Attribute} {result : List Node}
    (member : .expression e ∈ leavesOfList nodes)
    (ok : forward definition location forwarded registry nodes = .ok (result, after)) :
    .expression e ∈ leavesOfList result := by
  induction nodes generalizing result with
  | nil => cases member
  | cons node rest induction =>
      rw [leavesOfList, List.mem_append] at member
      cases node with
      | element tag attributes children site =>
          rw [forward] at ok
          cases ok
          rw [leaves] at member
          rw [leavesOfList, leaves]
          exact List.mem_append.mpr member
      | component name attributes children site =>
          rw [forward] at ok
          cases ok
          rw [leaves, List.mem_singleton] at member
          rw [leavesOfList, List.mem_append]
          exact .inr (member.resolve_left (by simp))
      | _ =>
          simp only [forward] at ok
          split at ok
          · rename_i rest_ok
            cases ok
            rw [leavesOfList, List.mem_append]
            exact member.imp_right fun behind => induction behind rest_ok
          · cases ok

/-- A copy is like the lowered template, apart from expressions. -/
theorem copy_alike {usage : Usage}
    (lower_ok : Fragment.lower definition.nodes definition.path start = .ok (template, registry))
    {made : List Node} {before : Registry}
    (ok : copy definition usage before = .ok (made, after)) : Alike Anything template made := by
  obtain ⟨lowered, middle, lower_ok', rfl, -⟩ := copy_steps ok
  have rekeyed : ∀ state e, SameCode e (rekeying.expression state e).1 := fun _ _ => rfl
  have alike := Fragment.lower_alike
    (Traversal.nodes_alike rekeyed definition.nodes (before, [])) lower_ok lower_ok'
  have anything {t : Traversal Registry} : ∀ state e, Anything e (t.expression state e).1 :=
    fun _ _ => trivial
  have any : ∀ e e' e'' : Expression, Anything e e' → Anything e' e'' → Anything e e'' :=
    fun _ _ _ _ _ => trivial
  refine Alike.trans any ?_ (Traversal.nodes_alike anything _ _)
  rw [Definition.substitute]
  split
  · exact alike.anything
  · exact alike.anything.trans any (Traversal.nodes_alike anything _ _)

/-- A copy has its slots where the lowered template has them. -/
theorem copy_spots {usage : Usage}
    (lower_ok : Fragment.lower definition.nodes definition.path start = .ok (template, registry))
    {made : List Node} {before : Registry}
    (ok : copy definition usage before = .ok (made, after)) :
    spotsOfList slot .plain made = spotsOfList slot .plain template :=
  ((copy_alike lower_ok ok).spots_eq slot .plain).symm

/-- The template of a definition reaches a slot through elements and fragments; where content has to
keep its ids, no element for the slot inside a usage comes before. -/
def Shows (own : Bool) (definition : Definition) (slot : Option String) : Prop :=
  ∃ start template registry,
    Fragment.lower definition.nodes definition.path start = .ok (template, registry) ∧
      .plain ∈ spotsOfList slot .plain template ∧
      (own = true → Spot.clear (spotsOfList slot .plain template) = true)

/-- An instance shows the content for a slot that is reached in the template. -/
theorem assemble_shows {own : Bool} {usage : Usage} {slots : Slots}
    (shows : Shows own definition slot) (unplaced : slots.Unplaced)
    (member : .expression e ∈ leavesOfList (slots.nodesFor slot))
    (ok : assemble context definition usage slots progress = .ok (nodes, progress')) :
    ∃ e', Traced own e e' ∧ .expression e' ∈ leavesOfList nodes := by
  obtain ⟨made, middle, forwarded, last, copy_ok, forward_ok, rfl, rfl⟩ := assemble_steps ok
  obtain ⟨start, template, registry, lower_ok, reached, clear⟩ := shows
  obtain ⟨content, found, member⟩ := Slots.content?_of_leaf member
  have unused : content.placed = false := unplaced content (Slots.mem_contents_of_content? found)
  rw [← copy_spots lower_ok copy_ok] at reached clear
  have placed : ∃ e', Traced own e e' ∧ .expression e' ∈ leavesOfList
      (placeNodes usage.site.scope ⟨slots, middle, progress.expectations⟩ made).1 :=
    placeNodes_traced unused member found reached clear
  obtain ⟨e', traced, shown⟩ := placed
  obtain ⟨e'', kept, shown'⟩ :=
    exists_leaf_rebind usage.site.scope last (forward_shown shown forward_ok)
  exact ⟨e'', traced.trans _ _ _ (kept.traced own), shown'⟩

/-- What a usage supplies for a slot is resolved, and what it is resolved to is shown in what the
usage is replaced by. -/
theorem instantiate_shows {own : Bool} {usage : Usage} {stack : List String} {levels depth : Nat}
    {name : String} (known : context.library.lookup? usage.name = some definition)
    (shows : Shows own definition (Slots.target name))
    (ok : instantiate context (resolveWithin context levels) stack depth usage progress =
      .ok (nodes, progress')) :
    ∃ copy given resolved depth' before after,
      Alike Kept (Slots.supplied definition.name name usage.children) copy ∧ copy ⊆ given ∧
      resolveNodes (instantiate context (resolveWithin context levels) stack depth') given before =
        .ok (resolved, after) ∧
      ∀ e, .expression e ∈ leavesOfList resolved →
        ∃ e', Traced own e e' ∧ .expression e' ∈ leavesOfList nodes := by
  cases depth with
  | zero => cases ok
  | succ depth =>
      obtain ⟨definition', slots, middle, slots', resolved, made, assembled, found, divided,
        content, assemble_ok, ok⟩ := instantiate_steps ok
      obtain rfl : definition' = definition :=
        Option.some_inj.mp ((definitionOf_lookup found).symm.trans known)
      have empty : ({} : Slots).Unplaced := by simp [Slots.Unplaced, Slots.contents]
      have keyed : ({} : Slots).Keyed := List.nodup_nil
      have unplaced := resolveSlots_unplaced (Slots.divide_unplaced empty divided) content
      obtain ⟨copy, alike, same⟩ := Slots.divide_supplied name divided
      have inside : copy ⊆ slots.nodesFor (Slots.target name) := same ▸ List.subset_append_right _ _
      obtain ⟨before, after, resolve_ok⟩ :=
        resolveSlots_nodesFor (Slots.divide_keyed keyed divided) (Slots.target name) content
      refine ⟨copy, _, _, depth, before, after, alike, inside, resolve_ok, ?_⟩
      intro e member
      obtain ⟨e', traced, shown⟩ := assemble_shows shows unplaced member assemble_ok
      refine ⟨e', traced, ?_⟩
      cases levels with
      | zero => cases ok
      | succ levels => exact resolveNodes_shown shown ok

/-! ## Usages and where they stand -/

/-- The node of a usage. -/
def Usage.node (usage : Usage) : Node :=
  .component usage.name usage.attributes usage.children usage.site

/-- A usage is reached in nodes that are resolved: through elements and fragments, and through what
usages around it supply for slots that are reached in their templates. -/
inductive Stands (library : Library) (own : Bool) (usage : Usage) : List Node → Prop where
  /-- Through elements and fragments only. -/
  | among {nodes : List Node} : usage.node ∈ leavesOfList nodes → Stands library own usage nodes
  /-- In the content that another usage supplies for a slot. -/
  | within {nodes : List Node} {definition : Definition} {name : String} (outer : Usage) :
      outer.node ∈ leavesOfList nodes → library.lookup? outer.name = some definition →
      Shows own definition (Slots.target name) →
      Stands library own usage (Slots.supplied definition.name name outer.children) →
      Stands library own usage nodes

/-- What a usage supplies for a slot is resolved wherever the usage is, and what it is resolved to
is shown in the result.  The usage may be in another scope by then. -/
theorem resolveNodes_supplied {own : Bool} {usage : Usage} {stack : List String}
    {levels depth : Nat} {name : String} {copy given result : List Node}
    (standing : usage.node ∈ leavesOfList nodes)
    (known : context.library.lookup? usage.name = some definition)
    (shows : Shows own definition (Slots.target name)) (alike : Alike Kept nodes copy)
    (inside : copy ⊆ given)
    (ok : resolveNodes (instantiate context (resolveWithin context levels) stack depth) given
      progress = .ok (result, progress')) :
    ∃ copy' given' resolved depth' before after,
      Alike Kept (Slots.supplied definition.name name usage.children) copy' ∧ copy' ⊆ given' ∧
      resolveNodes (instantiate context (resolveWithin context levels) stack depth') given' before =
        .ok (resolved, after) ∧
      ∀ e, .expression e ∈ leavesOfList resolved →
        ∃ e', Traced own e e' ∧ .expression e' ∈ leavesOfList result := by
  obtain ⟨leaf, there, same⟩ := alike.leaf standing
  cases same with
  | component attributes children _ =>
      obtain ⟨before, made, last, made_ok, below⟩ :=
        resolveNodes_leaf given (leavesOfList_subset inside there) ok
      rw [resolveNode] at made_ok
      obtain ⟨copy', given', resolved, depth', before', after, alike', inside', resolve_ok,
        shown⟩ := instantiate_shows (by exact known) shows made_ok
      have supplied := Slots.supplied_alike children definition.name name
      refine ⟨copy', given', resolved, depth', before', after, supplied.trans Traced.trans alike', inside',
        resolve_ok, ?_⟩
      intro e member
      obtain ⟨e', traced, leaf⟩ := shown e member
      exact ⟨e', traced, below leaf⟩

/-- An expression that a usage supplies is shown in what the nodes around the usage become. -/
theorem Stands.traced {own : Bool} {usage : Usage} {stack : List String} {levels depth : Nat}
    {name : String} {copy given result : List Node}
    (stands : Stands context.library own usage nodes)
    (known : context.library.lookup? usage.name = some definition)
    (shows : Shows own definition (Slots.target name))
    (member : .expression e ∈ Slots.supplied definition.name name usage.children)
    (alike : Alike Kept nodes copy) (inside : copy ⊆ given)
    (ok : resolveNodes (instantiate context (resolveWithin context levels) stack depth) given
      progress = .ok (result, progress')) :
    ∃ e', Traced own e e' ∧ .expression e' ∈ leavesOfList result := by
  -- by induction on the usages around the usage, from the outermost one on
  induction stands generalizing copy given result depth progress progress' with
  | among standing =>
      obtain ⟨copy', given', resolved, depth', before, after, alike', inside', resolve_ok,
        shown⟩ := resolveNodes_supplied standing known shows alike inside ok
      have leaf : .expression e ∈
          leavesOfList (Slots.supplied definition.name name usage.children) :=
        mem_leavesOfList.mpr ⟨_, member, List.mem_singleton_self _⟩
      obtain ⟨e', kept, leaf'⟩ := alike'.exists_leaf leaf
      obtain ⟨e'', traced, result_leaf⟩ :=
        shown e' (resolveNodes_shown (leavesOfList_subset inside' leaf') resolve_ok)
      exact ⟨e'', (kept.traced own).trans _ _ _ traced, result_leaf⟩
  | within outer standing known' shows' _ induction =>
      obtain ⟨copy', given', resolved, depth', before, after, alike', inside', resolve_ok,
        shown⟩ := resolveNodes_supplied standing known' shows' alike inside ok
      obtain ⟨e', traced, leaf⟩ := induction alike' inside' resolve_ok
      obtain ⟨e'', traced', result_leaf⟩ := shown e' leaf
      exact ⟨e'', traced.trans _ _ _ traced', result_leaf⟩

/-- No content for a slot that is reached is lost: the expressions that a usage supplies are shown
in what a page or an instance becomes, with their code and their location, and under their own ids
unless an earlier place for the content is inside a usage of another component. -/
theorem supplied_content_shown {own : Bool} {usage : Usage} {stack : List String} {levels : Nat}
    {name : String} {result : List Node} (stands : Stands context.library own usage nodes)
    (known : context.library.lookup? usage.name = some definition)
    (shows : Shows own definition (Slots.target name))
    (member : .expression e ∈ Slots.supplied definition.name name usage.children)
    (ok : resolveWithin context levels stack nodes progress = .ok (result, progress')) :
    ∃ e', .expression e' ∈ leavesOfList result ∧ e'.code = e.code ∧ e'.location = e.location ∧
      (own = true → e'.id = e.id) := by
  cases levels with
  | zero => cases ok
  | succ levels =>
      have itself : Alike Kept nodes nodes := .refl (Traced.refl true) nodes
      obtain ⟨e', ⟨code, location, id⟩, shown⟩ :=
        stands.traced known shows member itself (List.Subset.refl _) ok
      exact ⟨e', shown, code, location, id⟩

namespace Notices

/-- A definition without props, styles and script. -/
def plainDefinition (name : String) (nodes : List Node) : Definition where
  name
  path := name ++ ".zen"
  nodes
  slots := [Definition.defaultSlot]
  props := []
  styles := []
  script := none

/-- A badge never shows its content. -/
def badge : Definition := plainDefinition "Badge" [.element "b" [] [] {}]

/-- A note shows its content. -/
def note : Definition := plainDefinition "Note" [.element "p" [] [.element "slot" [] [] {}] {}]

/-- A panel gives its content to a badge and shows it below. -/
def panel : Definition := plainDefinition "Panel"
  [.element "div" []
    [.component "Badge" [] [.element "slot" [] [] {}] {},
      .element "p" [] [.element "slot" [] [] {}] {}] {}]

def library : Library := ⟨[("Badge", badge), ("Note", note), ("Panel", panel)]⟩

def title : Expression := ⟨"expr_0", "title", {}, none⟩

def detail : Expression := ⟨"expr_1", "detail", {}, none⟩

def registered : Registry :=
  ((({} : Registry).register "expr" "title" {} none).2.register "expr" "detail" {} none).2

/-- A usage with a single node as its content. -/
def usageOf (name : String) (child : Node) : Usage := ⟨name, [], [child], {}⟩

/-- A note in a note, with the title. -/
def nestedNotes : List Node := [(usageOf "Note" (usageOf "Note" (.expression title)).node).node]

/-- A panel with the title, and a badge around a note with the detail. -/
def page : List Node :=
  [(usageOf "Panel" (.expression title)).node,
    (usageOf "Badge" (usageOf "Note" (.expression detail)).node).node]

theorem shows_of_evaluates {own : Bool} {definition : Definition} {slot : Option String}
    (evaluates : (Fragment.lower definition.nodes definition.path {}).toOption.any (fun value =>
      decide (.plain ∈ spotsOfList slot .plain value.1 ∧
        (own = true → Spot.clear (spotsOfList slot .plain value.1) = true))) = true) :
    Shows own definition slot := by
  obtain ⟨⟨template, registry⟩, lower_ok, reached⟩ := exists_ok _ evaluates
  exact ⟨{}, template, registry, lower_ok, of_decide_eq_true reached⟩

theorem note_shows : Shows true note (Slots.target Definition.defaultSlot) :=
  shows_of_evaluates (by decide +kernel)

theorem panel_shows : Shows false panel (Slots.target Definition.defaultSlot) :=
  shows_of_evaluates (by decide +kernel)

end Notices

section

open Notices

/-- A note in a note keeps the title that it is given. -/
theorem supplied_content_shown_note :
    ∃ result progress,
      resolveWithin ⟨library, "page.zen"⟩ 4 [] nestedNotes { registry := registered } =
          .ok (result, progress) ∧
        ∃ e, .expression e ∈ leavesOfList result ∧ e.code = "title" ∧ e.id = "expr_0" := by
  have resolved : (resolveWithin ⟨library, "page.zen"⟩ 4 [] nestedNotes
      { registry := registered }).toOption.any (fun _ => true) = true := by decide +kernel
  obtain ⟨⟨result, progress⟩, ok, -⟩ := exists_ok _ resolved
  have inner : Stands library true (usageOf "Note" (.expression title))
      (Slots.supplied "Note" Definition.defaultSlot
        [(usageOf "Note" (.expression title)).node]) :=
    .among (List.mem_singleton_self _)
  have outer : Stands library true (usageOf "Note" (.expression title)) nestedNotes :=
    .within (usageOf "Note" (usageOf "Note" (.expression title)).node) (List.mem_singleton_self _)
      rfl note_shows inner
  obtain ⟨e, shown, code, -, id⟩ :=
    supplied_content_shown outer rfl note_shows (List.mem_singleton_self _) ok
  exact ⟨result, progress, ok, e, shown, code, id rfl⟩

/-- The panel shows a copy of the title, and a badge drops the note with the detail. -/
theorem supplied_content_not_kept :
    (Definition.defaultSlot ∈ panel.slots ∧
      Shows false panel (Slots.target Definition.defaultSlot) ∧
      .expression title ∈ Slots.supplied panel.name Definition.defaultSlot
        (usageOf "Panel" (.expression title)).children) ∧
      (Definition.defaultSlot ∈ note.slots ∧
        Shows true note (Slots.target Definition.defaultSlot) ∧
        .expression detail ∈ Slots.supplied note.name Definition.defaultSlot
          (usageOf "Note" (.expression detail)).children) ∧
      ∃ resolution after,
        resolve library "page.zen" page registered = .ok (resolution, after) ∧
          ∀ e ∈ Node.expressionsOfList resolution.nodes, e.id ≠ "expr_0" ∧ e.code ≠ "detail" := by
  have evaluates : (resolve library "page.zen" page registered).toOption.any
      (fun value : Resolution × Registry => decide (∀ e ∈ Node.expressionsOfList value.1.nodes,
        e.id ≠ "expr_0" ∧ e.code ≠ "detail")) = true := by decide +kernel
  obtain ⟨⟨resolution, after⟩, ok, lost⟩ := exists_ok _ evaluates
  refine ⟨⟨by decide, panel_shows, List.mem_singleton_self _⟩,
    ⟨by decide, note_shows, List.mem_singleton_self _⟩, ?_⟩
  exact ⟨resolution, after, ok, of_decide_eq_true lost⟩

end

end Component
end ReactiveTemplate
