import Mathlib.Data.List.Nodup
import ReactiveTemplate.Proofs.Component.Content

/-!
# Resolution ends

A usage calls for the replacement of other usages: of those in its content with the same stack, and
of those in its instance with its definition on top of the stack.  The names on a stack are distinct
names of the library, so that stacks cannot grow forever, and usages in content are nested less
deep.  Hence the bounds on the depth of the recursion are never reached: resolution is what the
recursion without any bound comes to, and this recursion ends.
-/

namespace ReactiveTemplate
namespace Node

/-! ## Heights -/

theorem heightOfList_append (left right : List Node) :
    heightOfList (left ++ right) = max (heightOfList left) (heightOfList right) := by
  induction left with
  | nil => simp [heightOfList]
  | cons node rest induction =>
      rw [List.cons_append, heightOfList, heightOfList, induction]
      omega

theorem heightOfList_singleton (node : Node) : heightOfList [node] = node.height := by
  simp [heightOfList]

theorem heightOfList_lt_of_mem_childLists {node : Node} {below : List Node}
    (member : below ∈ node.childLists) : heightOfList below < node.height := by
  cases node with
  | conditional id condition consequent alternate site =>
      rcases List.mem_pair.mp member with rfl | rfl
      · exact Nat.lt_succ_of_le (Nat.le_max_left _ _)
      · exact Nat.lt_succ_of_le (Nat.le_max_right _ _)
  | text | expression | doctype => cases member
  | _ =>
      rw [List.mem_singleton.mp member]
      exact Nat.lt_succ_self _

mutual

theorem height_le_of_mem_leaves {leaf : Node} :
    ∀ {node : Node}, leaf ∈ leaves node → leaf.height ≤ node.height
  | .element _ _ children _, member | .optional _ _ children _, member
  | .loop _ _ _ children _, member => by
      rw [leaves] at member
      exact Nat.le_succ_of_le (height_le_of_mem_leavesOfList member)
  | .conditional _ _ consequent alternate _, member => by
      rw [leaves, List.mem_append] at member
      rw [height]
      rcases member with first | second
      · have bound := height_le_of_mem_leavesOfList first
        omega
      · have bound := height_le_of_mem_leavesOfList second
        omega
  | .component .., member | .text .., member | .expression _, member | .doctype .., member => by
      rw [leaves, List.mem_singleton] at member
      exact member ▸ Nat.le_refl _

theorem height_le_of_mem_leavesOfList {leaf : Node} :
    ∀ {nodes : List Node}, leaf ∈ leavesOfList nodes → leaf.height ≤ heightOfList nodes
  | node :: rest, member => by
      rw [leavesOfList, List.mem_append] at member
      rw [heightOfList]
      rcases member with first | later
      · have bound := height_le_of_mem_leaves first
        omega
      · have bound := height_le_of_mem_leavesOfList later
        omega

end

end Node

namespace Component

open Node

/-! ## Which usages are replaced -/

/-- The content of a usage is nested less deep than the nodes that the usage stands in. -/
theorem Usage.height_lt_of_mem_leaves {usage : Usage} {nodes : List Node}
    (member : usage.node ∈ leavesOfList nodes) :
    heightOfList usage.children < heightOfList nodes :=
  height_le_of_mem_leavesOfList member

section Congruence

variable {one one' : Usage → Action (List Node)}

mutual

theorem resolveNode_congr :
    ∀ (node : Node), (∀ usage : Usage, usage.node ∈ leaves node → one usage = one' usage) →
      resolveNode one node = resolveNode one' node
  | .component name attributes children site, same => by
      funext progress
      rw [resolveNode, resolveNode,
        same ⟨name, attributes, children, site⟩ (List.mem_singleton_self _)]
  | .element _ _ children _, same | .optional _ _ children _, same
  | .loop _ _ _ children _, same => by
      funext progress
      rw [resolveNode, resolveNode, resolveNodes_congr children same]
  | .conditional _ _ consequent alternate _, same => by
      funext progress
      have first := resolveNodes_congr consequent fun usage member =>
        same usage (List.mem_append_left _ member)
      have second := resolveNodes_congr alternate fun usage member =>
        same usage (List.mem_append_right _ member)
      rw [resolveNode, resolveNode, first, second]
  | .text .., _ | .expression _, _ | .doctype .., _ => by
      funext progress
      rw [resolveNode, resolveNode]

/-- Only the usages that are not inside another one are replaced. -/
theorem resolveNodes_congr :
    ∀ (nodes : List Node),
      (∀ usage : Usage, usage.node ∈ leavesOfList nodes → one usage = one' usage) →
      resolveNodes one nodes = resolveNodes one' nodes
  | [], _ => by
      funext progress
      rw [resolveNodes, resolveNodes]
  | node :: rest, same => by
      funext progress
      have first := resolveNode_congr node fun usage member =>
        same usage (List.mem_append_left _ member)
      have later := resolveNodes_congr rest fun usage member =>
        same usage (List.mem_append_right _ member)
      rw [resolveNodes, resolveNodes, first, later]

end

theorem resolveNodes_congr_of_height {nodes : List Node} {bound : Nat}
    (low : heightOfList nodes ≤ bound)
    (same : ∀ usage : Usage, heightOfList usage.children < bound → one usage = one' usage) :
    resolveNodes one nodes = resolveNodes one' nodes := by
  refine resolveNodes_congr nodes fun usage member => same usage ?_
  exact Nat.lt_of_lt_of_le (usage.height_lt_of_mem_leaves member) low

variable {resolve resolve' : List Node → Action (List Node)}

private theorem resolveNamed_congr {named : List (String × SlotContent)}
    (same : ∀ content ∈ named.map (·.2), resolve content.nodes = resolve' content.nodes) :
    resolveNamed resolve named = resolveNamed resolve' named := by
  induction named with
  | nil =>
      funext progress
      rw [resolveNamed, resolveNamed]
  | cons entry rest induction =>
      rw [List.map_cons, List.forall_mem_cons] at same
      funext progress
      rw [resolveNamed, resolveNamed, same.1, induction same.2]

theorem resolveSlots_congr {slots : Slots}
    (same : ∀ content ∈ slots.contents, resolve content.nodes = resolve' content.nodes) :
    resolveSlots resolve slots = resolveSlots resolve' slots := by
  rw [Slots.contents, List.forall_mem_cons] at same
  have named : resolveNamed resolve (slots.named.mergeSort fun a b => a.1 ≤ b.1) =
      resolveNamed resolve' (slots.named.mergeSort fun a b => a.1 ≤ b.1) := by
    refine resolveNamed_congr fun content member => same.2 content ?_
    exact List.Perm.subset (List.Perm.map _ (List.mergeSort_perm _ _)) member
  funext progress
  simp only [resolveSlots, same.1, named]

end Congruence

private theorem Slots.divide_height_le {slots result : Slots} {definition : Definition}
    {scope : Option Scope} {registry after : Registry} {children : List Node} {bound : Nat}
    (there : ∀ content ∈ slots.contents, heightOfList content.nodes ≤ bound)
    (low : heightOfList children ≤ bound)
    (ok : divide definition scope slots registry children = .ok (result, after)) :
    ∀ content ∈ result.contents, heightOfList content.nodes ≤ bound := by
  induction children generalizing slots registry with
  | nil =>
      cases ok
      exact there
  | cons child rest induction =>
      rw [heightOfList] at low
      have rebound (nodes : List Node) :
          heightOfList (Node.rebind scope registry nodes).1 = heightOfList nodes :=
        (rebind_alike scope registry nodes).heightOfList_eq.symm
      have grown {nodes : List Node} (own : heightOfList nodes ≤ bound) (content : SlotContent)
          (former : heightOfList content.nodes ≤ bound) :
          heightOfList (content.nodes ++ (Node.rebind scope registry nodes).1) ≤ bound := by
        rw [heightOfList_append, rebound]
        omega
      rcases divide_cons ok with ⟨slot, below, marked, -, ok⟩ | ⟨-, ok⟩
      · have inside := heightOfList_lt_of_mem_childLists (childLists_marker? marked)
        have own : heightOfList below ≤ bound := by omega
        have new : heightOfList (Node.rebind scope registry below).1 ≤ bound := by
          rw [rebound]
          exact own
        exact induction (forall_contents_addNamed there new (grown own)) (by omega) ok
      · have own : heightOfList [child] ≤ bound := by
          rw [heightOfList_singleton]
          omega
        exact induction (forall_contents_addDefault there (grown own)) (by omega) ok

/-- Content is nested no deeper than the children of the usage. -/
theorem Slots.divide_height {slots : Slots} {definition : Definition} {scope : Option Scope}
    {registry after : Registry} {children : List Node}
    (ok : divide definition scope {} registry children = .ok (slots, after)) :
    ∀ content ∈ slots.contents, heightOfList content.nodes ≤ heightOfList children := by
  refine divide_height_le ?_ (Nat.le_refl _) ok
  simp [Slots.contents, heightOfList]

/-! ## The recursion without bounds -/

/-- What usages are replaced by, given the stack. -/
abbrev Answers := List String → Usage → Action (List Node)

/-- Replace a usage: `content` resolves what the usage contains, and `inside` what its instance
contains. -/
def replace (context : Context) (content : List Node → Action (List Node))
    (inside : List String → List Node → Action (List Node)) (stack : List String)
    (usage : Usage) : Action (List Node) := fun progress => do
  let definition ← reportIn context.file (definitionOf context stack usage)
  let progress := progress.use definition
  let (slots, registry) ← reportIn context.file
    (Slots.divide definition usage.site.scope {} progress.registry usage.children)
  let (slots, progress) ← resolveSlots content slots { progress with registry }
  let (nodes, progress) ← assemble context definition usage slots progress
  inside (stack ++ [definition.name]) nodes progress

theorem instantiate_succ (context : Context)
    (inside : List String → List Node → Action (List Node)) (stack : List String) (depth : Nat)
    (usage : Usage) :
    instantiate context inside stack (depth + 1) usage =
      replace context (resolveNodes (instantiate context inside stack depth)) inside stack
        usage := rfl

/-- Replace a usage, and in doing so call for the replacement of other usages. -/
def call (context : Context) (answers : Answers) (stack : List String) (usage : Usage) :
    Action (List Node) :=
  replace context (resolveNodes (answers stack)) (fun stack => resolveNodes (answers stack)) stack
    usage

/-- A computation that calls for the replacement of usages ends with an outcome, and all its calls
have a stack that is allowed: certain calls end in turn, and whoever answers them as they end, the
computation has this outcome. -/
inductive Ends (context : Context) (allowed : List String → Prop) :
    {α : Type} → (Answers → α) → α → Prop where
  | intro {α : Type} {run : Answers → α} {outcome : α}
      (asked : List String → Usage → Progress → Prop) (answers : Answers)
      (permitted : ∀ {stack usage progress}, asked stack usage progress → allowed stack)
      (calls : ∀ {stack usage progress}, asked stack usage progress →
        Ends context allowed (fun answers => call context answers stack usage progress)
          (answers stack usage progress))
      (result : ∀ answers' : Answers,
        (∀ {stack usage progress}, asked stack usage progress →
          answers' stack usage progress = answers stack usage progress) →
        run answers' = outcome) :
      Ends context allowed run outcome

/-- A computation ends with one outcome only. -/
theorem Ends.unique {context : Context} {allowed : List String → Prop} {α : Type}
    {run : Answers → α} {outcome outcome' : α} (ends : Ends context allowed run outcome)
    (ends' : Ends context allowed run outcome') : outcome = outcome' := by
  induction ends with
  | intro asked answers _ _ result induction =>
      obtain ⟨asked', answers', -, calls', result'⟩ := ends'
      -- answers that agree with both sides, which agree where both have been asked
      classical
      let both : Answers := fun stack usage progress =>
        if asked stack usage progress then answers stack usage progress
        else answers' stack usage progress
      have first := result both fun called => if_pos called
      have second := result' both fun {stack usage progress} called' => by
        by_cases called : asked stack usage progress
        · exact (if_pos called).trans (induction called (calls' called'))
        · exact if_neg called
      exact first.symm.trans second

/-! ## Stacks -/

/-- The names on a stack are distinct names of the library. -/
structure ProperStack (library : Library) (stack : List String) : Prop where
  nodup : stack.Nodup
  known : ∀ name ∈ stack, ∃ definition, (name, definition) ∈ library.entries

theorem ProperStack.nil (library : Library) : ProperStack library [] :=
  ⟨.nil, fun _ member => by cases member⟩

section Stacks

variable {context : Context} {stack : List String} {usage : Usage} {definition : Definition}

theorem ProperStack.length_le {library : Library} (proper : ProperStack library stack) :
    stack.length ≤ library.entries.length := by
  have part : stack ⊆ library.entries.map Prod.fst := by
    intro name member
    obtain ⟨definition, listed⟩ := proper.known name member
    exact List.mem_map_of_mem listed
  have bound := (proper.nodup.subperm part).length_le
  rwa [List.length_map] at bound

theorem definitionOf_not_mem (ok : definitionOf context stack usage = .ok definition) :
    definition.name ∉ stack := by
  rw [definitionOf] at ok
  split at ok
  · cases ok
  · split at ok
    · cases ok
    · split at ok
      · cases ok
      · rename_i absent
        cases ok
        rwa [List.contains_iff_mem] at absent

/-- A definition that is used goes on top of the stack. -/
theorem ProperStack.push (own : ∀ entry ∈ context.library.entries, entry.2.name = entry.1)
    (proper : ProperStack context.library stack)
    (ok : definitionOf context stack usage = .ok definition) :
    ProperStack context.library (stack ++ [definition.name]) := by
  obtain ⟨key, listed⟩ := Library.mem_of_lookup? (definitionOf_lookup ok)
  have named : definition.name = key := own _ listed
  constructor
  · rw [List.nodup_append_comm, List.singleton_append, List.nodup_cons]
    exact ⟨definitionOf_not_mem ok, proper.nodup⟩
  · intro name member
    rcases List.mem_append.mp member with below | top
    · exact proper.known name below
    · rw [List.mem_singleton.mp top, named]
      exact ⟨definition, listed⟩

end Stacks

/-! ## Bounds that are never reached -/

section Bounds

variable {context : Context} {stack : List String} {usage : Usage}

/-- What matters is how content is resolved that is not nested deeper than that of the usage, and
how instances are resolved with the definition on top of the stack. -/
theorem replace_congr {content content' : List Node → Action (List Node)}
    {inside inside' : List String → List Node → Action (List Node)}
    (contents : ∀ nodes, heightOfList nodes ≤ heightOfList usage.children →
      content nodes = content' nodes)
    (instances : ∀ definition, definitionOf context stack usage = .ok definition →
      inside (stack ++ [definition.name]) = inside' (stack ++ [definition.name])) :
    replace context content inside stack usage = replace context content' inside' stack usage := by
  funext progress
  unfold replace
  cases found : definitionOf context stack usage with
  | error misstep => rfl
  | ok definition =>
      dsimp only [reportIn, bind, Except.bind]
      rw [instances definition found]
      cases divided : Slots.divide definition usage.site.scope {}
          (progress.use definition).registry usage.children with
      | error misstep => rfl
      | ok parts =>
          have low := Slots.divide_height divided
          dsimp only
          rw [resolveSlots_congr fun part member => contents part.nodes (low part member)]

/-- How deep content may be nested does not matter as long as it is deep enough. -/
theorem instantiate_depth (context : Context)
    (inside : List String → List Node → Action (List Node)) (stack : List String)
    {depth depth' : Nat} {usage : Usage} (enough : heightOfList usage.children < depth)
    (enough' : heightOfList usage.children < depth') :
    instantiate context inside stack depth usage =
      instantiate context inside stack depth' usage := by
  induction depth generalizing depth' usage with
  | zero => exact absurd enough (Nat.not_lt_zero _)
  | succ depth induction =>
      cases depth' with
      | zero => exact absurd enough' (Nat.not_lt_zero _)
      | succ depth' =>
          rw [instantiate_succ, instantiate_succ]
          refine replace_congr (fun nodes low => ?_) fun _ _ => rfl
          refine resolveNodes_congr_of_height low fun usage' lower => ?_
          exact induction (by omega) (by omega)

/-- What a usage is replaced by, with as many levels and as much depth as it can take. -/
def answer (context : Context) : Answers := fun stack usage =>
  instantiate context (resolveWithin context (context.library.entries.length - stack.length)) stack
    (heightOfList usage.children + 1) usage

theorem resolveWithin_eq_resolveNodes (context : Context) (stack : List String) {levels : Nat}
    (nodes : List Node) (room : levels = context.library.entries.length - stack.length) :
    resolveWithin context (levels + 1) stack nodes = resolveNodes (answer context stack) nodes := by
  funext progress
  rw [resolveWithin]
  refine congrFun (resolveNodes_congr_of_height (Nat.le_refl _) fun usage lower => ?_) progress
  rw [answer, room]
  exact instantiate_depth context _ stack (by omega) (by omega)

/-- The answers are those of the recursion without bounds. -/
theorem answer_eq_call (own : ∀ entry ∈ context.library.entries, entry.2.name = entry.1)
    (proper : ProperStack context.library stack) (usage : Usage) :
    answer context stack usage = call context (answer context) stack usage := by
  rw [answer, instantiate_succ, call]
  refine replace_congr (fun nodes low => ?_) fun definition found => ?_
  · refine resolveNodes_congr_of_height low fun usage' lower => ?_
    exact instantiate_depth context _ stack lower (Nat.lt_succ_self _)
  · funext nodes
    have room := (proper.push own found).length_le
    rw [List.length_append, List.length_singleton] at room
    obtain ⟨levels, left⟩ : ∃ levels,
        context.library.entries.length - stack.length = levels + 1 :=
      ⟨context.library.entries.length - stack.length - 1, by omega⟩
    rw [left]
    refine resolveWithin_eq_resolveNodes context _ nodes ?_
    rw [List.length_append, List.length_singleton]
    omega

/-- A call with a proper stack ends with its answer, and makes calls with proper stacks only. -/
theorem answer_ends (own : ∀ entry ∈ context.library.entries, entry.2.name = entry.1)
    (stack : List String) (proper : ProperStack context.library stack) (usage : Usage)
    (progress : Progress) :
    Ends context (ProperStack context.library)
      (fun answers => call context answers stack usage progress)
      (answer context stack usage progress) := by
  -- a nested call has a longer stack, or content that is nested less deep
  let asked (stack' : List String) (usage' : Usage) (_ : Progress) : Prop :=
    ProperStack context.library stack' ∧ (stack.length < stack'.length ∨
      stack' = stack ∧ heightOfList usage'.children < heightOfList usage.children)
  refine .intro asked (answer context) And.left (fun {stack' usage' progress'} called =>
    answer_ends own stack' called.1 usage' progress') fun answers' agree => ?_
  rw [answer_eq_call own proper, call, call]
  refine congrFun (replace_congr (fun nodes low => ?_) fun definition found => ?_) progress
  · refine resolveNodes_congr_of_height low fun usage' lower => ?_
    funext progress'
    exact agree ⟨proper, .inr ⟨rfl, lower⟩⟩
  · funext nodes
    refine resolveNodes_congr nodes fun usage' member => ?_
    funext progress'
    refine agree ⟨proper.push own found, .inl ?_⟩
    rw [List.length_append, List.length_singleton]
    exact Nat.lt_succ_self _
termination_by (context.library.entries.length - stack.length, heightOfList usage.children)
decreasing_by
  rcases called.2 with longer | ⟨same, lower⟩
  · have room := called.1.length_le
    exact Prod.Lex.left _ _ (by omega)
  · subst same
    exact Prod.Lex.right _ lower

end Bounds

/-! ## Pages -/

/-- The resolution of a page, from its resolved nodes and what has been brought together. -/
def conclude :
    Except Diagnostic (List Node × Progress) → Except Diagnostic (Resolution × Registry)
  | .error report => .error report
  | .ok (nodes, progress) =>
    .ok (⟨nodes, progress.used, progress.styles, progress.scripts, progress.expectations⟩,
      progress.registry)

theorem resolve_eq_conclude (library : Library) (file : String) (nodes : List Node)
    (registry : Registry) :
    resolve library file nodes registry =
      conclude (resolveNodes (answer ⟨library, file⟩ []) nodes { registry }) := by
  have within : resolveWithin ⟨library, file⟩ (library.entries.length + 1) [] nodes =
      resolveNodes (answer ⟨library, file⟩ []) nodes :=
    resolveWithin_eq_resolveNodes ⟨library, file⟩ [] nodes rfl
  rw [resolve, within]
  rfl

/-- The recursion without bounds ends on every page, and resolution is what it comes to. -/
theorem resolve_ends {library : Library}
    (own : ∀ entry ∈ library.entries, entry.2.name = entry.1) (file : String)
    (nodes : List Node) (registry : Registry) :
    Ends ⟨library, file⟩ (ProperStack library)
      (fun answers => conclude (resolveNodes (answers []) nodes { registry }))
      (resolve library file nodes registry) := by
  refine .intro (fun stack _ _ => stack = []) (answer ⟨library, file⟩)
    (fun called => called ▸ .nil library) (fun {stack usage progress} called => ?_)
    fun answers' agree => ?_
  · subst called
    exact answer_ends own [] (.nil library) usage progress
  · rw [resolve_eq_conclude]
    refine congrArg conclude (congrFun (resolveNodes_congr nodes fun usage _ => ?_) _)
    funext progress
    exact agree rfl

end Component
end ReactiveTemplate
