import ReactiveTemplate.Page.Compile
import ReactiveTemplate.Proofs.Component.Balance

/-!
# What resolution leaves over

The instances that a run of resolution makes are listed in order, and each says which ids it leaves
over.  Once all usages are replaced, the registry lists the ids of the resolved tree and those that
the instances left over, and no others.  Main statement: every entry of a compiled page is used by
exactly one site if and only if no instance leaves anything over.
-/

namespace ReactiveTemplate
namespace Component

open Node

/-! ## Instances -/

/-- An instance that a run makes. -/
structure Instance where
  /-- The definition. -/
  definition : Definition
  /-- The usage that gives way to the instance. -/
  usage : Usage
  /-- The content of the usage, resolved. -/
  slots : Slots
  /-- The registry that the copy of the definition is made with. -/
  registry : Registry

namespace Instance

/-- The copy of the definition, before content is placed in it. -/
def copied (made : Instance) : List Node :=
  match copy made.definition made.usage made.registry with
  | .ok (nodes, _) => nodes
  | .error _ => []

/-- The ids that an instance leaves over: those in the attributes of markers, those in the
attributes of slot elements, and those in children of slot elements that give way to content. -/
def left (made : Instance) : List String :=
  made.usage.children.flatMap (Slots.markerIds made.definition.name) ++
    leftInNodes made.slots.supplies made.copied

end Instance

/-- The ids that instances leave over. -/
def leftBy (made : List Instance) : List String := made.flatMap Instance.left

@[simp]
theorem leftBy_append (first rest : List Instance) :
    leftBy (first ++ rest) = leftBy first ++ leftBy rest := List.flatMap_append

theorem leftBy_cons (first : Instance) (rest : List Instance) :
    leftBy (first :: rest) = first.left ++ leftBy rest := List.flatMap_cons

/-! ## Runs -/

/-- The instances that are made after a step that went well. -/
def following {α : Type} (outcome : Except Diagnostic (α × Progress))
    (later : α → Progress → List Instance) : List Instance :=
  match outcome with
  | .ok (value, progress) => later value progress
  | .error _ => []

mutual

/-- The instances that are made below a node, where `made` lists those of a usage. -/
def instancesInNode (one : Usage → Action (List Node)) (made : Usage → Progress → List Instance) :
    Node → Progress → List Instance
  | .component name attributes children site, progress =>
    made ⟨name, attributes, children, site⟩ progress
  | .element _ _ children _, progress => instancesInNodes one made children progress
  | .conditional _ _ consequent alternate _, progress =>
    instancesInNodes one made consequent progress ++
      following (resolveNodes one consequent progress) fun _ =>
        instancesInNodes one made alternate
  | .optional _ _ branch _, progress => instancesInNodes one made branch progress
  | .loop _ _ _ body _, progress => instancesInNodes one made body progress
  | .text .., _ | .expression _, _ | .doctype .., _ => []

/-- The instances that are made below the nodes of a list. -/
def instancesInNodes (one : Usage → Action (List Node)) (made : Usage → Progress → List Instance) :
    List Node → Progress → List Instance
  | [], _ => []
  | node :: rest, progress =>
    instancesInNode one made node progress ++
      following (resolveNode one node progress) fun _ => instancesInNodes one made rest

end

/-- The instances that are made in content for named slots. -/
def instancesInNamed (resolve : List Node → Action (List Node))
    (made : List Node → Progress → List Instance) :
    List (String × SlotContent) → Progress → List Instance
  | [], _ => []
  | (_, content) :: rest, progress =>
    made content.nodes progress ++
      following (resolve content.nodes progress) fun _ => instancesInNamed resolve made rest

/-- The instances that are made in content. -/
def instancesInSlots (resolve : List Node → Action (List Node))
    (made : List Node → Progress → List Instance) (slots : Slots) (progress : Progress) :
    List Instance :=
  made slots.default.nodes progress ++
    following (resolve slots.default.nodes progress) fun _ =>
      instancesInNamed resolve made (slots.named.mergeSort fun a b => a.1 ≤ b.1)

/-- The instances that are made of a usage: those in its content, its own, and those in what its
definition contains, which `made` lists. -/
def instancesOf (context : Context) (inside : List String → List Node → Action (List Node))
    (made : List String → List Node → Progress → List Instance) (stack : List String) :
    Nat → Usage → Progress → List Instance
  | 0, _, _ => []
  | depth + 1, usage, progress =>
    let one := instantiate context inside stack depth
    let below := instancesOf context inside made stack depth
    match definitionOf context stack usage with
    | .error _ => []
    | .ok definition =>
      match Slots.divide definition usage.site.scope {} progress.registry usage.children with
      | .error _ => []
      | .ok (slots, registry) =>
        let start := { progress.use definition with registry }
        instancesInSlots (resolveNodes one) (instancesInNodes one below) slots start ++
          following (resolveSlots (resolveNodes one) slots start) fun slots progress =>
            ⟨definition, usage, slots, progress.registry⟩ ::
              following (assemble context definition usage slots progress)
                (made (stack ++ [definition.name]))

/-- The instances of a run in which instances are nested less than `levels` deep. -/
def instancesWithin (context : Context) :
    Nat → List String → List Node → Progress → List Instance
  | 0, _, _, _ => []
  | levels + 1, stack, nodes, progress =>
    let depth := Node.heightOfList nodes + 1
    instancesInNodes (instantiate context (resolveWithin context levels) stack depth)
      (instancesOf context (resolveWithin context levels) (instancesWithin context levels) stack
        depth) nodes progress

/-- The instances that are made when all usages are replaced. -/
def instances (library : Library) (file : String) (nodes : List Node) (registry : Registry) :
    List Instance :=
  instancesWithin ⟨library, file⟩ (library.entries.length + 1) [] nodes { registry }

/-! ## Balances -/

/-- The registry, with nothing held besides the tree. -/
def Progress.account (progress : Progress) : Account := { registry := progress.registry }

/-- Whatever an action makes of nodes, the ids that it leaves over are those of its instances. -/
def Leaves (action : Action (List Node)) (made : Progress → List Instance) (old : List Node) :
    Prop :=
  ∀ {progress result progress'}, action progress = .ok (result, progress') →
    Account.Moves progress.account old progress'.account result (leftBy (made progress))

section

variable {one : Usage → Action (List Node)} {made : Usage → Progress → List Instance}

mutual

theorem resolveNode_leaves
    (leaves : ∀ usage : Usage, Leaves (one usage) (made usage)
      [.component usage.name usage.attributes usage.children usage.site]) :
    ∀ node : Node, Leaves (resolveNode one node) (instancesInNode one made node) [node]
  | .component name attributes children site, progress, result, progress', ok => by
      rw [resolveNode] at ok
      rw [instancesInNode]
      exact leaves ⟨name, attributes, children, site⟩ ok
  | .element tag attributes children site, progress, result, progress', ok => by
      simp only [resolveNode, bind_eq_ok] at ok
      obtain ⟨⟨children', last⟩, below, ok⟩ := ok
      cases ok
      rw [instancesInNode]
      exact (resolveNodes_leaves leaves children below).element tag attributes site
  | .conditional id condition consequent alternate site, progress, result, progress', ok => by
      simp only [resolveNode, bind_eq_ok] at ok
      obtain ⟨⟨consequent', middle⟩, first, ⟨alternate', last⟩, second, ok⟩ := ok
      cases ok
      rw [instancesInNode, leftBy_append, first, following]
      exact (resolveNodes_leaves leaves consequent first).conditional id condition site
        (resolveNodes_leaves leaves alternate second)
  | .optional id condition branch site, progress, result, progress', ok => by
      simp only [resolveNode, bind_eq_ok] at ok
      obtain ⟨⟨branch', last⟩, below, ok⟩ := ok
      cases ok
      rw [instancesInNode]
      exact (resolveNodes_leaves leaves branch below).optional id condition site
  | .loop id source binder body site, progress, result, progress', ok => by
      simp only [resolveNode, bind_eq_ok] at ok
      obtain ⟨⟨body', last⟩, below, ok⟩ := ok
      cases ok
      rw [instancesInNode]
      exact (resolveNodes_leaves leaves body below).loop id source binder site
  | .text .., progress, result, progress', ok | .expression _, progress, result, progress', ok
  | .doctype .., progress, result, progress', ok => by
      rw [resolveNode] at ok
      cases ok
      rw [instancesInNode]
      exact .refl _ _

theorem resolveNodes_leaves
    (leaves : ∀ usage : Usage, Leaves (one usage) (made usage)
      [.component usage.name usage.attributes usage.children usage.site]) :
    ∀ nodes : List Node, Leaves (resolveNodes one nodes) (instancesInNodes one made nodes) nodes
  | [], progress, result, progress', ok => by
      rw [resolveNodes] at ok
      cases ok
      rw [instancesInNodes]
      exact .refl _ _
  | node :: rest, progress, result, progress', ok => by
      simp only [resolveNodes, bind_eq_ok] at ok
      obtain ⟨⟨first', middle⟩, first, ⟨rest', last⟩, second, ok⟩ := ok
      cases ok
      rw [instancesInNodes, leftBy_append, first, following]
      exact (resolveNode_leaves leaves node first).append (resolveNodes_leaves leaves rest second)

end

end

section

variable {resolve : List Node → Action (List Node)} {made : List Node → Progress → List Instance}
variable {progress progress' : Progress}

theorem resolveNamed_leaves (leaves : ∀ nodes, Leaves (resolve nodes) (made nodes) nodes)
    {named named' : List (String × SlotContent)}
    (ok : resolveNamed resolve named progress = .ok (named', progress')) :
    Account.Moves progress.account ((named.map (·.2)).flatMap SlotContent.nodes)
      progress'.account ((named'.map (·.2)).flatMap SlotContent.nodes)
      (leftBy (instancesInNamed resolve made named progress)) := by
  induction named generalizing progress named' with
  | nil =>
      cases ok
      exact .refl _ _
  | cons entry rest induction =>
      simp only [resolveNamed, bind_eq_ok] at ok
      obtain ⟨⟨nodes, middle⟩, first, ⟨others, last⟩, second, ok⟩ := ok
      cases ok
      rw [instancesInNamed, leftBy_append, first, following]
      exact (leaves _ first).append (induction second)

theorem resolveSlots_leaves (leaves : ∀ nodes, Leaves (resolve nodes) (made nodes) nodes)
    {slots slots' : Slots}
    (ok : resolveSlots resolve slots progress = .ok (slots', progress')) :
    Account.Moves progress.account slots.nodes progress'.account slots'.nodes
      (leftBy (instancesInSlots resolve made slots progress)) := by
  simp only [resolveSlots, bind_eq_ok] at ok
  obtain ⟨⟨nodes, middle⟩, first, ⟨named, last⟩, second, ok⟩ := ok
  cases ok
  rw [instancesInSlots, leftBy_append, first, following]
  refine ((leaves _ first).append (resolveNamed_leaves leaves second)).of_perm ?_
  -- content is resolved in an order of its own
  refine List.Perm.append_left _ (List.Perm.flatMap_right _ (List.Perm.map _ ?_))
  exact (List.mergeSort_perm _ _).symm

theorem resolveNamed_keys {named named' : List (String × SlotContent)}
    (ok : resolveNamed resolve named progress = .ok (named', progress')) :
    named'.map (·.1) = named.map (·.1) := by
  induction named generalizing progress named' with
  | nil =>
      cases ok
      rfl
  | cons entry rest induction =>
      simp only [resolveNamed, bind_eq_ok] at ok
      obtain ⟨⟨nodes, middle⟩, first, ⟨others, last⟩, second, ok⟩ := ok
      cases ok
      rw [List.map_cons, List.map_cons, induction second]

theorem resolveSlots_keyed {slots slots' : Slots} (keyed : slots.Keyed)
    (ok : resolveSlots resolve slots progress = .ok (slots', progress')) : slots'.Keyed := by
  simp only [resolveSlots, bind_eq_ok] at ok
  obtain ⟨⟨nodes, middle⟩, first, ⟨named, last⟩, second, ok⟩ := ok
  cases ok
  have sorted := (List.mergeSort_perm slots.named fun a b => a.1 ≤ b.1).map Prod.fst
  rw [Slots.Keyed, resolveNamed_keys second]
  exact sorted.nodup_iff.mpr keyed

end

section

variable {context : Context} {definition : Definition} {usage : Usage} {slots : Slots}
variable {registry after : Registry} {nodes : List Node} {progress progress' : Progress}

/-- A copy takes the place of the values of props. -/
theorem copy_balance (ok : copy definition usage registry = .ok (nodes, after)) :
    Balance registry (Attribute.ids (usage.given definition)) after (idsOfList nodes) := by
  obtain ⟨lowered, middle, lower_ok, rfl, rfl⟩ := copy_steps ok
  have made := (rekey_balance registry definition.nodes).trans (Fragment.lower_balance lower_ok)
  have beside := made.beside_right (Attribute.ids (usage.given definition))
  have removed := (Balance.removeAll middle (Attribute.ids (usage.given definition))).beside_left
    (idsOfList lowered)
  have without := beside.trans removed
  rw [List.append_nil, List.nil_append] at without
  have substituted := without.trans (Definition.substitute_balance
    (definition.propValues (usage.given definition)) _ lowered)
  exact substituted.trans (relocate_balance usage.site.location _ _)

theorem Usage.ids_perm (usage : Usage) (definition : Definition) :
    (Attribute.ids usage.attributes).Perm
      (Attribute.ids (usage.given definition) ++ Attribute.ids (usage.forwarded definition)) := by
  rw [Attribute.ids_eq, Attribute.ids_eq, Attribute.ids_eq, ← List.map_append]
  exact (usage.attributes_perm definition).map _

/-- Putting an instance together leaves over what placing the content leaves. -/
theorem assemble_balance (unplaced : slots.Unplaced) (keyed : slots.Keyed)
    (ok : assemble context definition usage slots progress = .ok (nodes, progress')) :
    Balance progress.registry (idsOfList slots.nodes ++ Attribute.ids usage.attributes)
      progress'.registry (idsOfList nodes ++ leftInNodes slots.supplies
        (Instance.copied ⟨definition, usage, slots, progress.registry⟩)) := by
  obtain ⟨made, middle, forwarded, last, copy_ok, forward_ok, rfl, rfl⟩ := assemble_steps ok
  have copied : Instance.copied ⟨definition, usage, slots, progress.registry⟩ = made := by
    rw [Instance.copied, copy_ok]
  rw [copied, ← unplaced.ids_eq]
  -- the copy joins the content and the forwarded attributes
  have start := (copy_balance copy_ok).beside_left
    (Attribute.ids (usage.forwarded definition) ++ slots.unplacedIds)
  have steady : Placement.Steady slots.supplies ⟨slots, middle, progress.expectations⟩ :=
    ⟨keyed, rfl⟩
  have placing := (placeNodes_moves usage.site.scope made steady).1
  generalize placeNodes usage.site.scope ⟨slots, middle, progress.expectations⟩ made = placed
    at placing forward_ok ⊢
  have joined := Balance.beside_right placing (Attribute.ids (usage.forwarded definition))
  -- content that stands nowhere goes, and the root takes the forwarded attributes
  have gone := (Balance.removeAll placed.2.registry placed.2.slots.unplacedIds).beside_left
    (Attribute.ids (usage.forwarded definition) ++ idsOfList placed.1 ++
      leftInNodes slots.supplies made)
  have rooted := (forward_balance forward_ok).trans (rebind_balance usage.site.scope last forwarded)
  have finished := gone.trans (rooted.beside_left (leftInNodes slots.supplies made))
  refine ((start.reorder ?_ joined).reorder ?_ finished).perm ?_ (List.Perm.refl _)
  · simp only [List.perm_iff_count, List.count_append, Placement.account]
    omega
  · simp only [List.perm_iff_count, List.count_append, Placement.account]
    omega
  · have attributes := List.perm_iff_count.mp (usage.ids_perm definition)
    simp only [List.perm_iff_count, List.count_append] at attributes ⊢
    intro id
    have split := attributes id
    omega

/-- Whatever a usage gives way to, what is left over is in its markers, in its content, in its copy,
and in what its definition contains. -/
theorem instantiate_leaves {inside : List String → List Node → Action (List Node)}
    {made : List String → List Node → Progress → List Instance}
    (leaves : ∀ stack nodes, Leaves (inside stack nodes) (made stack nodes) nodes)
    (stack : List String) (depth : Nat) :
    ∀ usage : Usage, Leaves (instantiate context inside stack depth usage)
      (instancesOf context inside made stack depth usage)
      [.component usage.name usage.attributes usage.children usage.site] := by
  induction depth with
  | zero => exact fun usage _ _ _ ok => (nomatch ok)
  | succ depth induction =>
      intro usage progress result progress' ok
      obtain ⟨definition, slots, middle, slots', resolved, whole, assembled, found, divided,
        content, assemble_ok, ok⟩ := instantiate_steps ok
      have empty : ({} : Slots).Unplaced := by simp [Slots.Unplaced, Slots.contents]
      have unplaced := resolveSlots_unplaced (Slots.divide_unplaced empty divided) content
      have distinct : ({} : Slots).Keyed := List.nodup_nil
      have keyed := resolveSlots_keyed (Slots.divide_keyed distinct divided) content
      have bare : idsOfList ({} : Slots).nodes = [] := rfl
      have dividing := Slots.divide_balance divided
      have filling := resolveSlots_leaves (resolveNodes_leaves induction) content
      have putting := assemble_balance unplaced keyed assemble_ok
      have rest := leaves _ _ ok
      rw [instancesOf, found]
      dsimp only
      rw [divided]
      dsimp only
      rw [content, following, assemble_ok, following]
      generalize instancesInSlots _ _ slots _ = below at filling ⊢
      -- the attributes wait while the content is divided and resolved
      have first := dividing.beside_left (Attribute.ids usage.attributes)
      have second := Balance.beside_left filling
        (usage.children.flatMap (Slots.markerIds definition.name) ++
          Attribute.ids usage.attributes)
      have third := putting.beside_left
        (leftBy below ++ usage.children.flatMap (Slots.markerIds definition.name))
      have fourth := Balance.beside_left rest
        (leftBy below ++ usage.children.flatMap (Slots.markerIds definition.name) ++
          leftInNodes slots'.supplies
            (Instance.copied ⟨definition, usage, slots', resolved.registry⟩))
      refine (((first.reorder ?_ second).reorder ?_ third).reorder ?_ fourth).perm ?_ ?_
      all_goals
        simp only [List.perm_iff_count, List.count_append, leftBy_append, leftBy_cons,
          Instance.left, Progress.account, idsOfList_singleton, ids, bare, List.count_nil]
        omega

end

/-- Replacing all usages leaves over what the instances leave over. -/
theorem resolveWithin_leaves (context : Context) (levels : Nat) (stack : List String)
    (nodes : List Node) :
    Leaves (resolveWithin context levels stack nodes) (instancesWithin context levels stack nodes)
      nodes := by
  induction levels generalizing stack nodes with
  | zero => exact fun ok => (nomatch ok)
  | succ levels induction =>
      intro progress result progress' ok
      rw [resolveWithin] at ok
      rw [instancesWithin]
      exact resolveNodes_leaves (instantiate_leaves induction stack _) nodes ok

/-- Once all usages are replaced, the registry lists the ids of the tree and those that the instances
left over. -/
theorem resolve_balance {library : Library} {file : String} {nodes : List Node}
    {registry after : Registry} {resolution : Resolution}
    (ok : resolve library file nodes registry = .ok (resolution, after)) :
    Balance registry (idsOfList nodes) after
      (idsOfList resolution.nodes ++ leftBy (instances library file nodes registry)) := by
  rw [resolve] at ok
  split at ok
  · cases ok
  · rename_i resolved
    cases ok
    exact resolveWithin_leaves ⟨library, file⟩ _ _ _ resolved

end Component

/-! ## Compiled pages -/

/-- An id that is listed once is used, or it is left over. -/
theorem Registry.Lists.count_used {registry : Registry} {used left : List String}
    (lists : registry.Lists (used ++ left)) {id : String} (member : id ∈ registry.ids) :
    used.count id = if id ∈ left then 0 else 1 := by
  have distinct := lists.same.nodup_iff.mp lists.reachable.distinct
  rw [List.nodup_append] at distinct
  split
  · rename_i unused
    rw [List.count_eq_zero]
    intro shown
    exact distinct.2.2 id shown id unused rfl
  · rename_i kept
    have shown : id ∈ used := (List.mem_append.mp (lists.same.mem_iff.mp member)).resolve_right kept
    exact List.count_eq_one_of_mem distinct.1 shown

namespace Page

open Component

variable {source file : String} {library : Library} {compiled : Compiled}

/-- The steps in which a page is compiled. -/
theorem compile_steps (ok : compile source file library = .ok compiled) :
    ∃ template parsed nodes registry resolution after,
      Template.parse source file {} = .ok (template, parsed) ∧
      Fragment.lower template.nodes file parsed = .ok (nodes, registry) ∧
      resolve library file nodes registry = .ok (resolution, after) ∧
      compiled.html = (emit resolution.nodes).html ∧
      compiled.bindings = (emit resolution.nodes).bindings ∧
      compiled.expressions = after.expressions := by
  simp only [compile, bind_eq_ok] at ok
  obtain ⟨⟨template, parsed⟩, parse_ok, ⟨nodes, registry⟩, lower_ok, ⟨resolution, after⟩,
    resolve_ok, -, -, ok⟩ := ok
  cases ok
  exact ⟨template, parsed, nodes, registry, resolution, after, parse_ok, lower_ok, resolve_ok,
    rfl, rfl, rfl⟩

/-- Each entry of a compiled page is used by one site of the resolved tree, unless an instance left
it over, and then it is used by none. -/
theorem compile_used_once (ok : compile source file library = .ok compiled) :
    ∃ template parsed nodes registry resolution after,
      Template.parse source file {} = .ok (template, parsed) ∧
      Fragment.lower template.nodes file parsed = .ok (nodes, registry) ∧
      resolve library file nodes registry = .ok (resolution, after) ∧
      compiled.html = (emit resolution.nodes).html ∧
      compiled.bindings = (emit resolution.nodes).bindings ∧
      compiled.expressions = after.expressions ∧
      let made := instances library file nodes registry
      (compiled.expressions.map Expression.id).Perm
        (Node.idsOfList resolution.nodes ++ leftBy made) ∧
      (∀ e ∈ compiled.expressions,
        (Node.idsOfList resolution.nodes).count e.id = if e.id ∈ leftBy made then 0 else 1) ∧
      ((∀ e ∈ compiled.expressions, (Node.idsOfList resolution.nodes).count e.id = 1) ↔
        ∀ each ∈ made, each.left = []) := by
  obtain ⟨template, parsed, nodes, registry, resolution, after, parse_ok, lower_ok, resolve_ok,
    html, bindings, entries⟩ := compile_steps ok
  have start : ({} : Registry).Lists ([] ++ []) := ⟨.empty, List.Perm.refl _⟩
  have balance := ((Template.parse_balance parse_ok).trans (Fragment.lower_balance lower_ok)).trans
    (resolve_balance resolve_ok)
  have lists := balance [] start
  rw [List.append_nil] at lists
  have counts : ∀ e ∈ compiled.expressions, (Node.idsOfList resolution.nodes).count e.id =
      if e.id ∈ leftBy (instances library file nodes registry) then 0 else 1 := by
    intro e member
    rw [entries] at member
    exact lists.count_used (List.mem_map_of_mem member)
  refine ⟨template, parsed, nodes, registry, resolution, after, parse_ok, lower_ok, resolve_ok,
    html, bindings, entries, ?_, counts, ?_⟩
  · rw [entries]
    exact lists.same
  · rw [← List.flatMap_eq_nil_iff, ← leftBy]
    constructor
    · intro once
      rw [List.eq_nil_iff_forall_not_mem]
      intro id unused
      have listed : id ∈ after.ids := lists.same.mem_iff.mpr (List.mem_append_right _ unused)
      obtain ⟨e, member, rfl⟩ := List.mem_map.mp listed
      have count := once e (entries ▸ member)
      rw [counts e (entries ▸ member), if_pos unused] at count
      cases count
    · intro nothing e member
      rw [counts e member, nothing, if_neg List.not_mem_nil]

/-- Content takes the place of what a slot element contains, whose id is left over. -/
theorem compile_used_once_fallback :
    ∃ (definition : Definition) (compiled : Compiled) (resolution : Resolution),
      Definition.ofSource "Card" "Card.zen" "<div><slot>{fallback}</slot></div>" =
        .ok definition ∧
      compile "<Card title={name}>{text}</Card>" "page.zen" ⟨[("Card", definition)]⟩ =
        .ok compiled ∧
      compiled.bindings = (emit resolution.nodes).bindings ∧
      compiled.expressions.map (·.code) = ["name", "text", "fallback"] ∧
      compiled.expressions.map (fun e => (Node.idsOfList resolution.nodes).count e.id) =
        [1, 1, 0] := by
  have evaluates : (do
      let definition ← Definition.ofSource "Card" "Card.zen" "<div><slot>{fallback}</slot></div>"
      let page ← Template.parse "<Card title={name}>{text}</Card>" "page.zen" {}
      let lowered ← Fragment.lower page.1.nodes "page.zen" page.2
      let compiled ← compile "<Card title={name}>{text}</Card>" "page.zen"
        ⟨[("Card", definition)]⟩
      pure (leftBy (instances ⟨[("Card", definition)]⟩ "page.zen" lowered.1 lowered.2),
        compiled.expressions)).toOption.any
        (fun value : List String × List Expression => value.1 == ["expr_2"] &&
          value.2.map Expression.id == ["expr_0", "expr_1", "expr_2"] &&
          value.2.map Expression.code == ["name", "text", "fallback"]) = true := by
    decide +kernel
  obtain ⟨⟨left, entries⟩, ok, same⟩ := exists_ok _ evaluates
  simp only [bind_eq_ok] at ok
  obtain ⟨definition, read, ⟨template, parsed⟩, parse_ok, ⟨nodes, registry⟩, lower_ok, compiled,
    compile_ok, ok⟩ := ok
  have pair := Except.ok.inj ok
  rw [Prod.mk.injEq] at pair
  obtain ⟨rfl, rfl⟩ := pair
  simp only [Bool.and_eq_true, beq_iff_eq] at same
  obtain ⟨⟨left, listed⟩, codes⟩ := same
  obtain ⟨template', parsed', nodes', registry', resolution, after, parse_ok', lower_ok', -, -,
    bindings, -, -, counts, -⟩ := compile_used_once compile_ok
  rw [parse_ok, Except.ok.injEq, Prod.mk.injEq] at parse_ok'
  obtain ⟨rfl, rfl⟩ := parse_ok'
  rw [lower_ok, Except.ok.injEq, Prod.mk.injEq] at lower_ok'
  obtain ⟨rfl, rfl⟩ := lower_ok'
  rw [left] at counts
  refine ⟨definition, compiled, resolution, read, compile_ok, bindings, codes, ?_⟩
  calc compiled.expressions.map (fun e => (Node.idsOfList resolution.nodes).count e.id)
      = compiled.expressions.map (fun e => if e.id ∈ ["expr_2"] then 0 else 1) :=
        List.map_congr_left counts
    _ = (compiled.expressions.map Expression.id).map fun id =>
          if id ∈ ["expr_2"] then 0 else 1 := by
        rw [List.map_map]
        rfl
    _ = [1, 1, 0] := by
        rw [listed]
        decide

end Page
end ReactiveTemplate
