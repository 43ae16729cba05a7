import ReactiveTemplate.Proofs.Component.Marks

/-!
# Marked roots

The root of an instance is marked with the name of a component that owns a script.  A root that is a
usage hands its mark on to the root of what it is replaced by, and content that is shown keeps its
marks, unless it becomes the root of another instance.  Main statement: every instance of a
component with a script that is not dropped with some content leaves an element with a mark.
-/

namespace ReactiveTemplate
namespace Component

open Node

/-! ## Content and usages -/

section

variable {context : Context} {definition : Definition} {usage : Usage}

/-- Resolved nodes have no usage in them. -/
theorem resolveNodes_leaves_resolved {stack : List String} {levels depth : Nat}
    {nodes result : List Node} {progress progress' : Progress}
    (ok : resolveNodes (instantiate context (resolveWithin context levels) stack depth) nodes
      progress = .ok (result, progress')) : Resolved result := by
  have anything := durable_anything context.library
  have inside := instantiate_settles anything (resolveWithin_settles context anything levels) stack
    depth
  have settled := resolveNodes_settles inside nodes (fun _ _ => trivial) ok
  intro node member
  have own := settled node member
  cases node with
  | component => exact own.elim
  | _ => rfl

/-- No usage is left in the content. -/
def Slots.Resolved (slots : Slots) : Prop :=
  ∀ content ∈ slots.contents, Node.Resolved content.nodes

theorem Slots.Resolved.markPlaced {slots : Slots} (resolved : slots.Resolved)
    (slot : Option String) : (slots.markPlaced slot).Resolved := by
  intro content member
  obtain ⟨former, listed, same⟩ := Slots.mem_contents_markPlaced member
  exact same ▸ resolved former listed

mutual

theorem placeNode_usage {scope : Option Scope} :
    ∀ (node : Node) {p : Placement}, p.slots.Resolved →
      (placeNode scope p node).2.slots.Resolved ∧
        ∀ made ∈ (placeNode scope p node).1, made.isUsage = true →
          ∃ source ∈ allNodes node, source.isUsage = true ∧ source.attributes = made.attributes
  | .element tag attributes children site, p, resolved => by
      obtain ⟨kept, from_children⟩ := placeNodes_usage children resolved
      have deeper : ∀ made ∈ (placeNodes scope p children).1, made.isUsage = true →
          ∃ source ∈ allNodes (.element tag attributes children site),
            source.isUsage = true ∧ source.attributes = made.attributes := by
        intro made member own
        obtain ⟨source, found, same⟩ := from_children made member own
        exact ⟨source, List.mem_cons_of_mem _ found, same⟩
      rw [placeNode]
      split
      · dsimp only
        split
        · rename_i content found
          split
          · exact ⟨kept, deeper⟩
          · -- content has no usage in it
            have own := resolved content (Slots.mem_contents_of_content? found)
            have placed := ((insert_alike scope site.scope p (Slots.selected attributes)
              content).resolved own).ordinary
            refine ⟨resolved.markPlaced _, fun made member usage => ?_⟩
            rw [placed made member] at usage
            cases usage
        · exact ⟨kept, deeper⟩
      · refine ⟨kept, fun made member own => ?_⟩
        obtain rfl := List.mem_singleton.mp member
        cases own
  | .component name attributes children site, p, resolved => by
      rw [placeNode]
      refine ⟨(placeNodes_usage children resolved).1, fun made member _ => ?_⟩
      obtain rfl := List.mem_singleton.mp member
      exact ⟨_, List.mem_cons_self, rfl, rfl⟩
  | .conditional id condition consequent alternate site, p, resolved => by
      rw [placeNode]
      refine ⟨(placeNodes_usage alternate (placeNodes_usage consequent resolved).1).1,
        fun made member own => ?_⟩
      obtain rfl := List.mem_singleton.mp member
      cases own
  | .optional id condition branch site, p, resolved
  | .loop id condition _ branch site, p, resolved => by
      rw [placeNode]
      refine ⟨(placeNodes_usage branch resolved).1, fun made member own => ?_⟩
      obtain rfl := List.mem_singleton.mp member
      cases own
  | .text .., p, resolved | .expression _, p, resolved | .doctype .., p, resolved => by
      rw [placeNode]
      refine ⟨resolved, fun made member own => ?_⟩
      obtain rfl := List.mem_singleton.mp member
      cases own

/-- A usage at the top level of a template that has its content placed was in the template. -/
theorem placeNodes_usage {scope : Option Scope} :
    ∀ (nodes : List Node) {p : Placement}, p.slots.Resolved →
      (placeNodes scope p nodes).2.slots.Resolved ∧
        ∀ made ∈ (placeNodes scope p nodes).1, made.isUsage = true →
          ∃ source ∈ allNodesOfList nodes, source.isUsage = true ∧
            source.attributes = made.attributes
  | [], p, resolved => ⟨resolved, nofun⟩
  | node :: rest, p, resolved => by
      obtain ⟨kept, from_node⟩ := placeNode_usage node resolved
      obtain ⟨kept', from_rest⟩ := placeNodes_usage rest kept
      rw [placeNodes]
      refine ⟨kept', fun made member own => ?_⟩
      rw [allNodesOfList]
      rcases List.mem_append.mp member with first | behind
      · obtain ⟨source, found, same⟩ := from_node made first own
        exact ⟨source, List.mem_append_left _ found, same⟩
      · obtain ⟨source, found, same⟩ := from_rest made behind own
        exact ⟨source, List.mem_append_right _ found, same⟩

end

/-- Resolved content has no usage in it. -/
theorem resolveSlots_leaves_resolved {stack : List String} {levels depth : Nat} {slots slots' : Slots}
    {progress progress' : Progress}
    (ok : resolveSlots
      (resolveNodes (instantiate context (resolveWithin context levels) stack depth)) slots
      progress = .ok (slots', progress')) : slots'.Resolved :=
  resolveSlots_contents (fun _ _ _ _ _ => resolveNodes_leaves_resolved) ok

/-- What is reached among the nodes for a slot is reached in content for it. -/
theorem Slots.content?_of_reach {slots : Slots} {slot : Option String} {node : Node}
    (member : node ∈ reachOfList anyTag (slots.nodesFor slot)) :
    ∃ placed, slots.content? slot = some ⟨slots.nodesFor slot, placed⟩ := by
  rw [nodesFor] at member ⊢
  cases found : slots.content? slot with
  | none =>
      rw [found] at member
      cases member
  | some content => exact ⟨content.placed, rfl⟩

theorem marks_forwarded_eq_nil (unmarked : marks usage.attributes = []) :
    marks (usage.forwarded definition) = [] := by
  rw [marks_eq_nil, List.any_eq_false] at unmarked ⊢
  exact fun attr member => unmarked attr (List.mem_filter.mp member).1

end

/-! ## Instances -/

/-- A usage gives way to an instance. -/
structure Inlining (context : Context) (levels : Nat) (stack : List String) (depth : Nat)
    (usage : Usage) (before : Progress) where
  /-- The definition. -/
  definition : Definition
  found : definitionOf context stack usage = .ok definition
  /-- The content of the usage. -/
  given : Slots
  /-- The registry after the content is divided. -/
  registry : Registry
  divided : Slots.divide definition usage.site.scope {} before.registry usage.children =
    .ok (given, registry)
  /-- The content, resolved. -/
  content : Slots
  /-- What resolution has brought together by then. -/
  filled : Progress
  content_ok : resolveSlots
    (resolveNodes (instantiate context (resolveWithin context levels) stack depth)) given
    { before.use definition with registry } = .ok (content, filled)
  /-- The copy of the template. -/
  template : List Node
  /-- The registry after the copy is made. -/
  copied : Registry
  copy_ok : copy definition usage filled.registry = .ok (template, copied)
  /-- The instance, before its own usages are replaced. -/
  assembled : List Node
  /-- What resolution has brought together by then. -/
  start : Progress
  assemble_ok : assemble context definition usage content filled = .ok (assembled, start)
  /-- The instance. -/
  result : List Node
  /-- What resolution has brought together in the end. -/
  after : Progress
  inner_ok : resolveWithin context levels (stack ++ [definition.name]) assembled start =
    .ok (result, after)

section

variable {context : Context} {levels depth : Nat} {stack : List String} {usage : Usage}
variable {before : Progress}

namespace Inlining

/-- The template after its slots are resolved. -/
def placed (made : Inlining context levels stack depth usage before) : List Node :=
  (placeNodes usage.site.scope ⟨made.content, made.copied, made.filled.expectations⟩
    made.template).1

/-- The instance is what the usage gives way to. -/
theorem replaces (made : Inlining context levels stack depth usage before) :
    instantiate context (resolveWithin context levels) stack (depth + 1) usage before =
      .ok (made.result, made.after) := by
  simp only [instantiate, bind_eq_ok, reportIn_eq_ok, Progress.use_registry]
  exact ⟨made.definition, made.found, _, made.divided, _, made.content_ok, _, made.assemble_ok,
    made.inner_ok⟩

/-- A usage that gives way to nodes gives way to an instance. -/
theorem nonempty {result : List Node} {after : Progress}
    (ok : instantiate context (resolveWithin context levels) stack (depth + 1) usage before =
      .ok (result, after)) : Nonempty (Inlining context levels stack depth usage before) := by
  obtain ⟨definition, given, registry, content, filled, assembled, start, found, divided,
    content_ok, assemble_ok, inner_ok⟩ := instantiate_steps ok
  obtain ⟨template, copied, -, -, copy_ok, -⟩ := assemble_steps assemble_ok
  exact ⟨⟨definition, found, given, registry, divided, content, filled, content_ok, template,
    copied, copy_ok, assembled, start, assemble_ok, result, after, inner_ok⟩⟩

variable {made : Inlining context levels stack depth usage before}

/-- An instance is made with the definition that its usage refers to. -/
theorem known (made : Inlining context levels stack depth usage before) :
    context.library.lookup? usage.name = some made.definition :=
  definitionOf_lookup made.found

/-- An instance is filled where a template of its definition shows content that it is given. -/
theorem fills (made : Inlining context levels stack depth usage before) {template : List Node}
    {start registry : Registry} {slot : Option String} {node : Node}
    (lower_ok : Fragment.lower made.definition.nodes made.definition.path start =
      .ok (template, registry))
    (member : node ∈ reachOfList anyTag (made.content.nodesFor slot)) :
    Fills (made.content.nodesFor slot) slot template made.placed := by
  have nonempty : made.content.nodesFor slot ≠ [] := by
    intro empty
    rw [empty] at member
    cases member
  exact placeNodes_filled (copy_alike lower_ok made.copy_ok) nonempty
    (Slots.content?_of_reach member)

/-- The template with its content goes on to be resolved; its root may have been given marks. -/
theorem carried (made : Inlining context levels stack depth usage before) {marked : Bool}
    (unmarked : marked = false → marks usage.attributes = []) :
    Carried marked (marked || made.definition.hasScript) made.placed made.assembled := by
  obtain ⟨template, copied, forwarded, last, copy_ok, forward_ok, same, -⟩ :=
    assemble_steps made.assemble_ok
  rw [made.copy_ok, Except.ok.injEq, Prod.mk.injEq] at copy_ok
  obtain ⟨rfl, rfl⟩ := copy_ok
  have forwards : Carried marked (marked || made.definition.hasScript) made.placed forwarded := by
    refine .forward (fun free => marks_forwarded_eq_nil (unmarked free)) (fun free => ?_) forward_ok
    rw [Bool.or_eq_false_iff] at free
    exact ⟨marks_forwarded_eq_nil (unmarked free.1), free.2⟩
  have rebound := rebind_alike usage.site.scope last forwarded
  exact same ▸ forwards.alike (rebound.mono fun _ _ kept => Kept.traced kept false)

/-- The root of an instance has marks that are forwarded to the root of the template, or its own
ones, or the name of the component. -/
theorem root (made : Inlining context levels stack depth usage before) :
    (root? made.placed = none ∧ usage.forwarded made.definition = []) ∨
      ∃ root ∈ made.placed, root? made.placed = some root ∧
        ∃ root' ∈ made.assembled, root'.isRoot = true ∧ root'.isUsage = root.isUsage ∧
          ∃ registry site, marks root'.attributes =
            marks (rootAttributes made.definition registry (usage.forwarded made.definition)
              root.attributes site).1 := by
  obtain ⟨template, copied, forwarded, last, copy_ok, forward_ok, same, -⟩ :=
    assemble_steps made.assemble_ok
  rw [made.copy_ok, Except.ok.injEq, Prod.mk.injEq] at copy_ok
  obtain ⟨rfl, rfl⟩ := copy_ok
  rcases forward_root forward_ok with ⟨none, empty, -⟩ |
    ⟨front, root, rest, registry', site, split, found, settled⟩
  · exact .inl ⟨none, empty⟩
  · right
    have member : root ∈ made.placed := List.mem_of_find?_eq_some found
    refine ⟨root, member, found, ?_⟩
    have alike := rebind_alike usage.site.scope last forwarded
    rw [settled] at alike
    obtain ⟨front', others, after, -, tail⟩ := alike.of_append
    rw [same, settled, after]
    have isRoot : root.isRoot = true := List.find?_some found
    cases root with
    | element =>
        cases tail with
        | element given =>
            exact ⟨_, List.mem_append_right _ List.mem_cons_self, rfl, rfl, registry', site,
              marks_alike given⟩
    | component =>
        cases tail with
        | component given =>
            exact ⟨_, List.mem_append_right _ List.mem_cons_self, rfl, rfl, registry', site,
              marks_alike given⟩
    | _ => cases isRoot

end Inlining

end

/-! ## Content that is shown -/

/-- Nodes, or only what is directly inside them. -/
def within (deep : Bool) (nodes : List Node) : List Node :=
  if deep then insidesOfList exceptSlot nodes else nodes

/-- Content for a slot of a template, or for a slot element in the content of a usage, is shown in
what the nodes become: a slot element is reached, or a usage is reached that supplies one for a slot
of its own component, which shows it in turn.  The root of the nodes may be given marks that
override others, and a usage at the root may be given marks.  If elements have to keep their marks,
then no place for the content is at the top level of a template whose root is given marks. -/
inductive Shown (library : Library) (own : Bool) :
    (overrides adds : Bool) → Option String → List Node → Prop where
  /-- Through elements and fragments. -/
  | plainly {overrides adds : Bool} {slot : Option String} {nodes children : List Node}
      {attributes : List Attribute} {site : Site} (deep : Bool) :
      .element "slot" attributes children site ∈ reachOfList exceptSlot (within deep nodes) →
      Slots.selected attributes = slot → (own = true → overrides = true → deep = true) →
      Shown library own overrides adds slot nodes
  /-- In what a usage supplies. -/
  | supplied {overrides adds : Bool} {slot : Option String} {nodes template : List Node}
      {definition : Definition} {name : String} {start registry : Registry}
      (deep marked : Bool) (usage : Usage) :
      usage.node ∈ reachOfList exceptSlot (within deep nodes) →
      library.lookup? usage.name = some definition →
      (marked = false → marks usage.attributes = [] ∧ (adds = true → deep = true)) →
      Fragment.lower definition.nodes definition.path start = .ok (template, registry) →
      Shown library own marked (marked || definition.hasScript) (Slots.target name) template →
      Shown library own false false slot (Slots.supplied definition.name name usage.children) →
      Shown library own overrides adds slot nodes

/-- An element with a mark that is given for a slot is found in what shows the content. -/
theorem Shown.found {context : Context} {own overrides adds : Bool} {slot : Option String}
    {name : String} {nodes content placed given result : List Node} {node : Node}
    {stack : List String} {levels depth : Nat} {progress progress' : Progress}
    (shown : Shown context.library own overrides adds slot nodes)
    (fills : Fills content slot nodes placed) (resolved : Resolved content)
    (carried : Carried overrides adds placed given)
    (ok : resolveNodes (instantiate context (resolveWithin context levels) stack depth) given
      progress = .ok (result, progress'))
    (member : node ∈ reachOfList anyTag content) (bears : Bears own name node) :
    ∃ node' ∈ reachOfList anyTag result, Bears own name node' ∧ Again node node' := by
  -- by induction on the usages that the content is handed to
  induction shown generalizing content placed given result node stack levels depth progress
    progress' with
  | plainly deep reached selected still =>
      suffices ∃ node' ∈ reachOfList anyTag given, Bears own name node' ∧ Again node node' by
        obtain ⟨node', found, bears', again⟩ := this
        have finished := again.resolved (resolved.reach member)
        exact ⟨node', resolveNodes_reach finished found ok, bears', again⟩
      cases deep with
      | true =>
          obtain ⟨node', found, same⟩ := fills.insidesOfList.reach_content reached selected member
          obtain ⟨node'', found', same'⟩ := carried.inside node' found
          exact ⟨node'', found', (bears.alike same).alike same',
            .of_alike (same.trans Traced.trans same')⟩
      | false =>
          obtain ⟨node', found, same⟩ := fills.reach_content reached selected member
          obtain ⟨node'', found', remarked⟩ := carried.around node' found
          refine ⟨node'', found', (bears.alike same).remarked remarked fun asked => ?_,
            (Again.of_alike same).trans remarked.again⟩
          exact Bool.eq_false_iff.mpr fun overridden => nomatch still asked overridden
  | @supplied overrides adds slot nodes template definition target start registry deep marked usage
      reached known unmarked lower_ok _ _ inTemplate inContent =>
      -- the usage is found, and it has no marks if it is to have none
      obtain ⟨usage', found, sameName, free, filled⟩ : ∃ usage' : Usage,
          usage'.node ∈ reachOfList anyTag given ∧ usage'.name = usage.name ∧
          (marked = false → marks usage'.attributes = []) ∧
          Fills content slot usage.children usage'.children := by
        cases deep with
        | true =>
            obtain ⟨usage', found, sameName, attributes, filled⟩ :=
              fills.insidesOfList.reach_usage reached
            obtain ⟨node', found', same⟩ := carried.inside _ found
            cases same with
            | @component _ _ attributes' _ site' _ children' _ _ attributes'' children _ =>
                refine ⟨⟨usage'.name, attributes', children', site'⟩, found', sameName,
                  fun free => ?_, filled.alike children⟩
                rw [marks_alike attributes'', marks_alike attributes]
                exact (unmarked free).1
        | false =>
            obtain ⟨usage', found, sameName, attributes, filled⟩ := fills.reach_usage reached
            obtain ⟨node', found', given', same, -, -, kept⟩ := carried.around _ found
            cases same with
            | @component _ _ attributes' _ site' _ children' _ _ attributes'' children _ =>
                refine ⟨⟨usage'.name, attributes', children', site'⟩, found', sameName,
                  fun free => ?_, filled.alike children⟩
                have added : adds = false :=
                  Bool.eq_false_iff.mpr fun added => nomatch (unmarked free).2 added
                rw [marks_alike attributes'', kept added]
                exact (marks_alike attributes).trans (unmarked free).1
      obtain ⟨before, asks⟩ := asks_of_reach found ok
      obtain ⟨result', after, made_ok, inResult⟩ := asks.answered ok
      suffices ∃ node' ∈ reachOfList anyTag result', Bears own name node' ∧ Again node node' by
        obtain ⟨node', found, marked'⟩ := this
        exact ⟨node', inResult found, marked'⟩
      cases depth with
      | zero => cases made_ok
      | succ depth =>
          obtain ⟨made⟩ := Inlining.nonempty made_ok
          rw [made.replaces, Except.ok.injEq, Prod.mk.injEq] at made_ok
          obtain ⟨rfl, rfl⟩ := made_ok
          obtain rfl : made.definition = definition := by
            have known' := made.known
            rw [sameName, known, Option.some_inj] at known'
            exact known'.symm
          -- the element is in the content of the usage, ...
          have keyed : ({} : Slots).Keyed := List.nodup_nil
          obtain ⟨copied, alike, same⟩ := Slots.divide_supplied target made.divided
          have among : copied ⊆ made.given.nodesFor (Slots.target target) :=
            same ▸ List.subset_append_right _ _
          obtain ⟨first, last, slot_ok⟩ := resolveSlots_nodesFor
            (Slots.divide_keyed keyed made.divided) (Slots.target target) made.content_ok
          have copies := alike.mono fun _ _ kept => Kept.traced kept false
          obtain ⟨node', inSlot, bears', again⟩ := inContent
            (filled.supplied resolved made.definition.name target) resolved (.of_alike copies among)
            slot_ok member bears
          -- ... and the component shows it
          cases levels with
          | zero => exact nomatch made.inner_ok
          | succ levels =>
              obtain ⟨node'', found', bears'', again'⟩ := inTemplate (made.fills lower_ok inSlot)
                (resolveNodes_leaves_resolved slot_ok) (made.carried free) made.inner_ok inSlot
                bears'
              exact ⟨node'', found', bears'', again.trans again'⟩

/-! ## Roots that are usages -/

/-- No component takes the mark for the value of a prop. -/
def LeavesMarks (library : Library) : Prop :=
  ∀ name definition, library.lookup? name = some definition →
    ∀ prop ∈ definition.props, Text.equalIgnoringAsciiCase prop ownerAttribute = false

/-- No usage that a component is made of has two marks. -/
def MarksOnce (library : Library) : Prop :=
  ∀ name definition, library.lookup? name = some definition →
    ∀ usage registry nodes after, copy definition usage registry = .ok (nodes, after) →
      ∀ node ∈ allNodesOfList nodes, node.isUsage = true → (marks node.attributes).length ≤ 1

section

variable {context : Context} {definition : Definition} {usage : Usage}

theorem marks_forwarded (leaves : LeavesMarks context.library)
    (known : context.library.lookup? usage.name = some definition) :
    marks (usage.forwarded definition) = marks usage.attributes := by
  have kept (attr : Attribute) (mark : attr.name = ownerAttribute) :
      definition.isProp attr = false := by
    rw [Definition.isProp, List.any_eq_false]
    intro prop member
    rw [mark, leaves _ _ known prop member]
    exact Bool.false_ne_true
  rw [Usage.forwarded]
  induction usage.attributes with
  | nil => rfl
  | cons attr rest induction =>
      rw [List.filter_cons, marks_cons]
      by_cases mark : attr.name = ownerAttribute
      · rw [kept attr mark, if_pos mark, Bool.not_false, if_pos rfl, marks_cons, if_pos mark,
          induction]
      · rw [if_neg mark]
        split
        · rw [marks_cons, if_neg mark, induction]
        · exact induction

/-- A root that has a mark becomes an element that has a mark, whatever it is a usage of; and that
element is at the top level. -/
theorem resolveWithin_marked {own : Bool} {name : String} (leaves : LeavesMarks context.library)
    (once : own = true → MarksOnce context.library) (levels : Nat) {stack : List String}
    {nodes result : List Node} {progress progress' : Progress} {root : Node}
    (member : root ∈ nodes) (isRoot : root.isRoot = true) (marked : marks root.attributes ≠ [])
    (named : own = true → (marks root.attributes).head? = some (some name) ∧
      (root.isUsage = true → (marks root.attributes).length ≤ 1))
    (ok : resolveWithin context levels stack nodes progress = .ok (result, progress')) :
    ∃ node ∈ result, Bears own name node := by
  induction levels generalizing stack nodes result progress progress' root with
  | zero => cases ok
  | succ levels induction =>
      rw [resolveWithin] at ok
      obtain ⟨before, made, after, made_ok, inResult⟩ := resolveNodes_mem member ok
      suffices ∃ node ∈ made, Bears own name node by
        obtain ⟨node, found, bears⟩ := this
        exact ⟨node, inResult found, bears⟩
      cases root with
      | element tag attributes children site =>
          obtain ⟨node', rfl, ⟨children', rfl⟩, -⟩ := resolveNode_insides rfl made_ok
          exact ⟨_, List.mem_singleton_self _, rfl, marked, fun asked => (named asked).1⟩
      | component target attributes children site =>
          -- the usage of the root hands its marks on to the root of its own instance
          let usage : Usage := ⟨target, attributes, children, site⟩
          obtain ⟨made⟩ := Inlining.nonempty made_ok
          rw [resolveNode, made.replaces, Except.ok.injEq, Prod.mk.injEq] at made_ok
          obtain ⟨rfl, rfl⟩ := made_ok
          have handed : marks (usage.forwarded made.definition) = marks attributes :=
            marks_forwarded leaves made.known
          rcases made.root with ⟨-, empty⟩ |
            ⟨root, inPlaced, -, root', inAssembled, isRoot', sameKind, registry, place, law⟩
          · rw [empty] at handed
            exact (marked handed.symm).elim
          refine induction inAssembled isRoot' ?_ (fun asked => ?_) made.inner_ok
          · rw [law]
            exact marks_rootAttributes_ne_nil (.inr (.inr (handed ▸ marked)))
          · obtain ⟨first, single⟩ := named asked
            have one : marks (usage.forwarded made.definition) = [some name] := by
              rw [handed]
              obtain ⟨rest, split⟩ := List.head?_eq_some_iff.mp first
              have few := single rfl
              rw [split, List.length_cons] at few
              have none : rest = [] := List.length_eq_zero_iff.mp (by omega)
              rw [none] at split
              exact split
            have settled : marks root'.attributes = some name :: (marks root.attributes).tail := by
              rw [law, marks_rootAttributes, one]
              refine if_neg ?_
              rintro ⟨-, ⟨⟩⟩
            rw [settled]
            refine ⟨rfl, fun isUsage => ?_⟩
            have resolved := resolveSlots_leaves_resolved made.content_ok
            obtain ⟨source, inTemplate, wasUsage, same⟩ :=
              (placeNodes_usage made.template resolved).2 root inPlaced (sameKind ▸ isUsage)
            have few := once asked _ _ made.known _ _ _ _ made.copy_ok source inTemplate wasUsage
            rw [same] at few
            rw [List.length_cons, List.length_tail]
            omega
      | _ => cases isRoot

end

/-! ## Instances in a run -/

/-- Nodes that are resolved, with what came before. -/
structure Run where
  /-- How deep instances may be nested. -/
  levels : Nat
  /-- The components around. -/
  stack : List String
  /-- How deep usages may be nested in content. -/
  depth : Nat
  /-- The nodes. -/
  nodes : List Node
  /-- What resolution has brought together before. -/
  before : Progress

/-- How a usage is replaced in a run. -/
def Run.replace (context : Context) (run : Run) : Usage → Action (List Node) :=
  instantiate context (resolveWithin context run.levels) run.stack run.depth

/-- What the nodes of a run become. -/
def Run.outcome (context : Context) (run : Run) : Except Diagnostic (List Node × Progress) :=
  resolveNodes (run.replace context) run.nodes run.before

/-- The run that resolves a page. -/
def Run.start (library : Library) (nodes : List Node) (registry : Registry) : Run where
  levels := library.entries.length
  stack := []
  depth := heightOfList nodes + 1
  nodes
  before := { registry }

section

variable {context : Context} {levels depth : Nat} {stack : List String} {usage : Usage}
variable {before : Progress}

/-- An instance comes about in a run and its content is not dropped: a usage that is reached gives
way to it, or it comes about when the usages inside an instance are replaced, or in the content that
an instance is given for a slot and shows.  If roots have to keep their marks, then no place for the
content is at the top level of a template whose root is given marks. -/
inductive Inlined (own : Bool) (made : Inlining context levels stack depth usage before) :
    Run → Prop where
  /-- A usage gives way to the instance. -/
  | here {nodes : List Node} {progress : Progress} :
      Asks (instantiate context (resolveWithin context levels) stack (depth + 1)) usage before nodes
        progress →
      Inlined own made ⟨levels, stack, depth + 1, nodes, progress⟩
  /-- Inside an instance. -/
  | inside {levels' depth' : Nat} {stack' : List String} {usage' : Usage} {before' : Progress}
      {nodes : List Node} {progress : Progress}
      (outer : Inlining context (levels' + 1) stack' depth' usage' before') :
      Asks (instantiate context (resolveWithin context (levels' + 1)) stack' (depth' + 1)) usage'
        before' nodes progress →
      Inlined own made ⟨levels', stack' ++ [outer.definition.name],
        heightOfList outer.assembled + 1, outer.assembled, outer.start⟩ →
      Inlined own made ⟨levels' + 1, stack', depth' + 1, nodes, progress⟩
  /-- In content. -/
  | content {levels' depth' : Nat} {stack' : List String} {usage' : Usage} {before' : Progress}
      {nodes template : List Node} {progress first last : Progress} {slot : Option String}
      {start registry : Registry} (marked : Bool)
      (outer : Inlining context levels' stack' depth' usage' before') :
      Asks (instantiate context (resolveWithin context levels') stack' (depth' + 1)) usage'
        before' nodes progress →
      (marked = false → marks usage'.attributes = []) →
      Fragment.lower outer.definition.nodes outer.definition.path start = .ok (template, registry) →
      Shown context.library own marked (marked || outer.definition.hasScript) slot template →
      resolveNodes (instantiate context (resolveWithin context levels') stack' depth')
        (outer.given.nodesFor slot) first = .ok (outer.content.nodesFor slot, last) →
      Inlined own made ⟨levels', stack', depth', outer.given.nodesFor slot, first⟩ →
      Inlined own made ⟨levels', stack', depth' + 1, nodes, progress⟩

/-- An element with a mark in an instance that is not dropped is found in what the nodes of the run
become. -/
theorem Inlined.found {own : Bool} {name : String} {run : Run} {node : Node}
    {made : Inlining context levels stack depth usage before} (inlined : Inlined own made run)
    {result : List Node} {after : Progress} (ok : run.outcome context = .ok (result, after))
    (member : node ∈ reachOfList anyTag made.result) (bears : Bears own name node) :
    ∃ node' ∈ reachOfList anyTag result, Bears own name node' ∧ Again node node' := by
  induction inlined generalizing result after with
  | here asks =>
      obtain ⟨made', after', made_ok, inResult⟩ := asks.answered ok
      rw [made.replaces, Except.ok.injEq, Prod.mk.injEq] at made_ok
      obtain ⟨rfl, -⟩ := made_ok
      exact ⟨node, inResult member, bears, .of_alike (.refl (Traced.refl false) _)⟩
  | inside outer asks _ induction =>
      obtain ⟨node', found, marked'⟩ := induction outer.inner_ok
      obtain ⟨made', after', made_ok, inResult⟩ := asks.answered ok
      rw [outer.replaces, Except.ok.injEq, Prod.mk.injEq] at made_ok
      obtain ⟨rfl, -⟩ := made_ok
      exact ⟨node', inResult found, marked'⟩
  | @content levels' _ _ _ _ _ _ _ _ _ _ _ _ marked outer asks free lower_ok shown content_ok _
      induction =>
      obtain ⟨node', inSlot, bears', again⟩ := induction content_ok
      have inside : ∃ node'' ∈ reachOfList anyTag outer.result,
          Bears own name node'' ∧ Again node' node'' := by
        cases levels' with
        | zero => exact nomatch outer.inner_ok
        | succ levels' =>
            exact shown.found (outer.fills lower_ok inSlot)
              (resolveNodes_leaves_resolved content_ok) (outer.carried free) outer.inner_ok inSlot
              bears'
      obtain ⟨node'', found, bears'', again'⟩ := inside
      obtain ⟨made', after', made_ok, inResult⟩ := asks.answered ok
      rw [outer.replaces, Except.ok.injEq, Prod.mk.injEq] at made_ok
      obtain ⟨rfl, -⟩ := made_ok
      exact ⟨node'', inResult found, bears'', again.trans again'⟩

/-- Every instance of a component with a script marks the resolved tree: its root becomes an element
with a mark at the top level of what the instance becomes, however many usages of other components
that takes; and if the instance is not dropped, this element is found again in the tree.  The mark
is the name of the component if neither the usage nor the root has one already. -/
theorem instance_marked {library : Library} {file : String} {nodes : List Node}
    {registry after : Registry} {resolution : Resolution} {own : Bool} {root : Node}
    {levels depth : Nat} {stack : List String} {usage : Usage} {before : Progress}
    {made : Inlining ⟨library, file⟩ levels stack depth usage before}
    (ok : resolve library file nodes registry = .ok (resolution, after))
    (leaves : LeavesMarks library) (once : own = true → MarksOnce library)
    (inlined : Inlined own made (Run.start library nodes registry))
    (script : made.definition.hasScript = true) (rooted : root? made.placed = some root)
    (unmarked : own = true → marks usage.attributes = [] ∧ marks root.attributes = []) :
    ∃ marked ∈ made.result, Bears own made.definition.name marked ∧
      ∃ node ∈ reachOfList anyTag resolution.nodes,
        Bears own made.definition.name node ∧ Again marked node := by
  have run_ok : ∃ progress, (Run.start library nodes registry).outcome ⟨library, file⟩ =
      .ok (resolution.nodes, progress) := by
    rw [resolve] at ok
    split at ok
    · cases ok
    · rename_i progress resolved
      cases ok
      exact ⟨progress, resolved⟩
  obtain ⟨progress, run_ok⟩ := run_ok
  rcases made.root with ⟨none, -⟩ |
    ⟨root', -, found, marked, inAssembled, isRoot, -, registry', site, law⟩
  · rw [rooted] at none
    cases none
  rw [rooted, Option.some_inj] at found
  subst found
  have given : marks marked.attributes ≠ [] := by
    rw [law]
    exact marks_rootAttributes_ne_nil (.inl script)
  obtain ⟨node, member, bears⟩ : ∃ node ∈ made.result, Bears own made.definition.name node := by
    refine resolveWithin_marked leaves once levels inAssembled isRoot given (fun asked => ?_)
      made.inner_ok
    obtain ⟨free, bare⟩ := unmarked asked
    have named : marks marked.attributes = [some made.definition.name] := by
      rw [law, marks_rootAttributes, marks_forwarded_eq_nil free, bare]
      exact if_pos ⟨script, rfl⟩
    rw [named]
    exact ⟨rfl, fun _ => Nat.le_refl 1⟩
  exact ⟨node, member, bears, inlined.found run_ok (mem_reachOfList_of_mem member) bears⟩

end

namespace Frames

/-- A component with a script. -/
def scripted (name : String) (nodes : List Node) : Definition :=
  { Notices.plainDefinition name nodes with script := some ⟨"let open = true", []⟩ }

/-- The inner component is an element. -/
def innerFrame : Definition := scripted "Inner" [.element "div" [] [] {}]

/-- The outer component is a usage of the inner one. -/
def outerFrame : Definition := scripted "Outer" [.component "Inner" [] [] {}]

def library : Library := ⟨[("Inner", innerFrame), ("Outer", outerFrame)]⟩

/-- The usage of the outer component. -/
def usage : Usage := ⟨"Outer", [], [], {}⟩

theorem leavesMarks : LeavesMarks library := by
  intro name definition known prop member
  obtain ⟨key, listed⟩ := Library.mem_of_lookup? known
  simp only [library, List.mem_cons, Prod.mk.injEq, List.not_mem_nil, or_false] at listed
  rcases listed with ⟨-, rfl⟩ | ⟨-, rfl⟩ <;> cases member

theorem lower_outer :
    Fragment.lower outerFrame.nodes outerFrame.path {} = .ok (outerFrame.nodes, {}) := rfl

theorem lower_inner :
    Fragment.lower innerFrame.nodes innerFrame.path {} = .ok (innerFrame.nodes, {}) := rfl

/-- A copy of the outer component is a usage of the inner one, without attributes. -/
theorem copy_outer {usage : Usage} {registry after : Registry} {nodes : List Node}
    (ok : copy outerFrame usage registry = .ok (nodes, after)) :
    ∃ site, nodes = [.component "Inner" [] [] site] := by
  cases copy_alike lower_outer ok with
  | component attributes children behind =>
      cases attributes
      cases children
      cases behind
      exact ⟨_, rfl⟩

/-- A copy of the inner component is an element without attributes. -/
theorem copy_inner {usage : Usage} {registry after : Registry} {nodes : List Node}
    (ok : copy innerFrame usage registry = .ok (nodes, after)) :
    ∃ site, nodes = [.element "div" [] [] site] := by
  cases copy_alike lower_inner ok with
  | element attributes children behind =>
      cases attributes
      cases children
      cases behind
      exact ⟨_, rfl⟩

theorem marksOnce : MarksOnce library := by
  intro name definition known usage registry nodes after ok node member isUsage
  obtain ⟨key, listed⟩ := Library.mem_of_lookup? known
  simp only [library, List.mem_cons, Prod.mk.injEq, List.not_mem_nil, or_false] at listed
  rcases listed with ⟨-, rfl⟩ | ⟨-, rfl⟩
  · obtain ⟨site, rfl⟩ := copy_inner ok
    obtain rfl := List.mem_singleton.mp member
    cases isUsage
  · obtain ⟨site, rfl⟩ := copy_outer ok
    obtain rfl := List.mem_singleton.mp member
    exact Nat.zero_le 1

theorem start_asks (context : Context) (registry : Registry) :
    Asks (instantiate context (resolveWithin context 2) [] 2) usage { registry } [usage.node]
      { registry } := .here

/-- The usage gives way to an instance of the outer component, whose root is a usage of the inner
one. -/
theorem exists_outer {resolution : Resolution} {after : Registry}
    (ok : resolve library "page.zen" [usage.node] {} = .ok (resolution, after)) :
    ∃ (made : Inlining ⟨library, "page.zen"⟩ 2 [] 1 usage { registry := {} }) (site : Site),
      made.definition = outerFrame ∧ made.placed = [.component "Inner" [] [] site] := by
  rw [resolve] at ok
  split at ok
  · cases ok
  · rename_i resolved
    obtain ⟨result, last, made_ok, -⟩ := (start_asks ⟨library, "page.zen"⟩ {}).answered resolved
    obtain ⟨made⟩ := Inlining.nonempty made_ok
    have known : some outerFrame = some made.definition := made.known
    obtain ⟨site, copied⟩ := copy_outer (Option.some.inj known ▸ made.copy_ok)
    refine ⟨made, site, (Option.some.inj known).symm, ?_⟩
    rw [Inlining.placed, copied]
    rfl

end Frames

section

open Frames

/-- The mark of the outer component stands on the root of the inner one. -/
theorem instance_marked_frames :
    ∃ (resolution : Resolution) (after : Registry)
      (made : Inlining ⟨library, "page.zen"⟩ 2 [] 1 usage { registry := {} }) (root : Node),
      resolve library "page.zen" [usage.node] {} = .ok (resolution, after) ∧
        Inlined true made (Run.start library [usage.node] {}) ∧
        made.definition.hasScript = true ∧ root? made.placed = some root ∧ root.isUsage = true ∧
        marks usage.attributes = [] ∧ marks root.attributes = [] ∧
        ∃ marked ∈ made.result, Bears true "Outer" marked ∧
          ∃ node ∈ reachOfList anyTag resolution.nodes,
            Bears true "Outer" node ∧ Again marked node := by
  have evaluates : (resolve library "page.zen" [usage.node] {}).toOption.any (fun _ => true) =
      true := by decide +kernel
  obtain ⟨⟨resolution, after⟩, ok, -⟩ := exists_ok _ evaluates
  obtain ⟨made, site, isOuter, placed⟩ := exists_outer ok
  have inlined : Inlined true made (Run.start library [usage.node] {}) := .here (start_asks _ _)
  have script : made.definition.hasScript = true := by rw [isOuter]; rfl
  have rooted : root? made.placed = some (.component "Inner" [] [] site) := by rw [placed]; rfl
  have marked := instance_marked ok leavesMarks (fun _ => marksOnce) inlined script rooted
    fun _ => ⟨rfl, rfl⟩
  have named : made.definition.name = "Outer" := by rw [isOuter]; rfl
  rw [named] at marked
  exact ⟨resolution, after, made, _, ok, inlined, script, rooted, rfl, rfl, rfl, marked⟩

/-- The inner component owns a script as well, and no element has its name for a mark. -/
theorem inner_instance_unmarked :
    ∃ (resolution : Resolution) (after : Registry) (levels depth : Nat) (stack : List String)
      (usage' : Usage) (before : Progress)
      (made : Inlining ⟨library, "page.zen"⟩ levels stack depth usage' before),
      resolve library "page.zen" [usage.node] {} = .ok (resolution, after) ∧
        Inlined true made (Run.start library [usage.node] {}) ∧
        made.definition.name = "Inner" ∧ made.definition.hasScript = true ∧
        (root? made.placed).isSome = true ∧
        ∀ node ∈ allNodesOfList resolution.nodes, some "Inner" ∉ marks node.attributes := by
  have evaluates : (resolve library "page.zen" [usage.node] {}).toOption.any
      (fun value : Resolution × Registry => decide (∀ node ∈ allNodesOfList value.1.nodes,
        some "Inner" ∉ marks node.attributes)) = true := by decide +kernel
  obtain ⟨⟨resolution, after⟩, ok, unmarked⟩ := exists_ok _ evaluates
  obtain ⟨outer, site, isOuter, placed⟩ := exists_outer ok
  have marked : true = false → marks usage.attributes = [] := nofun
  -- the usage of the inner component goes on to be resolved
  obtain ⟨node, found, attributes, same, -⟩ := (outer.carried marked).around
    (.component "Inner" [] [] site) (by rw [placed]; exact List.mem_cons_self)
  cases same with
  | @component _ _ attributes' _ site' _ children' _ _ _ _ _ =>
      let usage' : Usage := ⟨"Inner", attributes', children', site'⟩
      have there : usage'.node ∈ reachOfList anyTag outer.assembled := found
      obtain ⟨before, asks⟩ := asks_of_reach there outer.inner_ok
      obtain ⟨result, last, made_ok, -⟩ := asks.answered outer.inner_ok
      obtain ⟨made⟩ := Inlining.nonempty made_ok
      have known : some innerFrame = some made.definition := made.known
      have isInner := (Option.some.inj known).symm
      obtain ⟨place, copied⟩ := copy_inner (isInner ▸ made.copy_ok)
      refine ⟨resolution, after, _, _, _, _, _, made, ok,
        .inside outer (start_asks _ _) (.here asks), by rw [isInner]; rfl, by rw [isInner]; rfl, ?_,
        of_decide_eq_true unmarked⟩
      rw [Inlining.placed, copied]
      rfl

end

end Component
end ReactiveTemplate
