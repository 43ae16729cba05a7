import Mathlib.Data.List.Induction
import ReactiveTemplate.Proofs.Component.Leftovers
import ReactiveTemplate.Proofs.Component.Library

/-!
# What components bring along

A run comes to a usage before it comes to the content of the usage, and to the content before it
comes to what the definition contains.  Its definitions, taken one after the other in this order,
say what resolution brings together: a definition that has been taken before adds nothing, any other
one adds its name, its styles and its script.
-/

namespace ReactiveTemplate
namespace Component

/-! ## Usages in the order of a run -/

/-- The instances that are made of a usage and in it, in the order in which the run comes to their
usages; `met` lists those in what the definition contains. -/
def encountersOf (context : Context) (inside : List String → List Node → Action (List Node))
    (met : List String → List Node → Progress → List Instance) (stack : List String) :
    Nat → Usage → Progress → List Instance
  | 0, _, _ => []
  | depth + 1, usage, progress =>
    let one := instantiate context inside stack depth
    let below := encountersOf context inside met stack depth
    match definitionOf context stack usage with
    | .error _ => []
    | .ok definition =>
      match Slots.divide definition usage.site.scope {} progress.registry usage.children with
      | .error _ => []
      | .ok (slots, registry) =>
        let start := { progress.use definition with registry }
        let content := instancesInSlots (resolveNodes one) (instancesInNodes one below) slots start
        match resolveSlots (resolveNodes one) slots start with
        | .error _ => content
        | .ok (slots, progress) =>
          ⟨definition, usage, slots, progress.registry⟩ :: content ++
            following (assemble context definition usage slots progress)
              (met (stack ++ [definition.name]))

/-- The instances of a run in which instances are nested less than `levels` deep, in the order in
which the run comes to their usages. -/
def encountersWithin (context : Context) :
    Nat → List String → List Node → Progress → List Instance
  | 0, _, _, _ => []
  | levels + 1, stack, nodes, progress =>
    let depth := Node.heightOfList nodes + 1
    instancesInNodes (instantiate context (resolveWithin context levels) stack depth)
      (encountersOf context (resolveWithin context levels) (encountersWithin context levels) stack
        depth) nodes progress

/-- The instances that are made when all usages are replaced, in the order in which the run comes to
their usages. -/
def encounters (library : Library) (file : String) (nodes : List Node) (registry : Registry) :
    List Instance :=
  encountersWithin ⟨library, file⟩ (library.entries.length + 1) [] nodes { registry }

/-! ## The same instances -/

section

variable {one : Usage → Action (List Node)} {met made : Usage → Progress → List Instance}

mutual

theorem instancesInNode_perm
    (same : ∀ usage progress, (met usage progress).Perm (made usage progress)) :
    ∀ (node : Node) (progress : Progress),
      (instancesInNode one met node progress).Perm (instancesInNode one made node progress)
  | .component name attributes children site, progress => by
      rw [instancesInNode, instancesInNode]
      exact same _ _
  | .element _ _ children _, progress | .optional _ _ children _, progress
  | .loop _ _ _ children _, progress => by
      rw [instancesInNode, instancesInNode]
      exact instancesInNodes_perm same children progress
  | .conditional _ _ consequent alternate _, progress => by
      rw [instancesInNode, instancesInNode]
      refine (instancesInNodes_perm same consequent progress).append ?_
      cases resolveNodes one consequent progress with
      | error report => exact .refl _
      | ok result => exact instancesInNodes_perm same alternate result.2
  | .text .., progress | .expression _, progress | .doctype .., progress => by
      rw [instancesInNode, instancesInNode]

theorem instancesInNodes_perm
    (same : ∀ usage progress, (met usage progress).Perm (made usage progress)) :
    ∀ (nodes : List Node) (progress : Progress),
      (instancesInNodes one met nodes progress).Perm (instancesInNodes one made nodes progress)
  | [], progress => by
      rw [instancesInNodes, instancesInNodes]
  | node :: rest, progress => by
      rw [instancesInNodes, instancesInNodes]
      refine (instancesInNode_perm same node progress).append ?_
      cases resolveNode one node progress with
      | error report => exact .refl _
      | ok result => exact instancesInNodes_perm same rest result.2

end

end

section

variable {resolve : List Node → Action (List Node)}
variable {met made : List Node → Progress → List Instance}

private theorem instancesInNamed_perm
    (same : ∀ nodes progress, (met nodes progress).Perm (made nodes progress))
    (named : List (String × SlotContent)) (progress : Progress) :
    (instancesInNamed resolve met named progress).Perm
      (instancesInNamed resolve made named progress) := by
  induction named generalizing progress with
  | nil => exact .refl _
  | cons entry rest induction =>
      rw [instancesInNamed, instancesInNamed]
      refine (same _ _).append ?_
      cases resolve entry.2.nodes progress with
      | error report => exact .refl _
      | ok result => exact induction result.2

theorem instancesInSlots_perm
    (same : ∀ nodes progress, (met nodes progress).Perm (made nodes progress)) (slots : Slots)
    (progress : Progress) :
    (instancesInSlots resolve met slots progress).Perm
      (instancesInSlots resolve made slots progress) := by
  rw [instancesInSlots, instancesInSlots]
  refine (same _ _).append ?_
  cases resolve slots.default.nodes progress with
  | error report => exact .refl _
  | ok result => exact instancesInNamed_perm same _ result.2

end

section

variable {context : Context} {inside : List String → List Node → Action (List Node)}

theorem encountersOf_perm {met made : List String → List Node → Progress → List Instance}
    (same : ∀ stack nodes progress, (met stack nodes progress).Perm (made stack nodes progress))
    (stack : List String) (depth : Nat) (usage : Usage) (progress : Progress) :
    (encountersOf context inside met stack depth usage progress).Perm
      (instancesOf context inside made stack depth usage progress) := by
  induction depth generalizing usage progress with
  | zero => exact .refl _
  | succ depth induction =>
      rw [encountersOf, instancesOf]
      cases definitionOf context stack usage with
      | error misstep => exact .refl _
      | ok definition =>
          dsimp only
          cases Slots.divide definition usage.site.scope {} progress.registry usage.children with
          | error misstep => exact .refl _
          | ok divided =>
              let one := instantiate context inside stack depth
              let start := { progress.use definition with registry := divided.2 }
              have content := @instancesInSlots_perm (resolveNodes one) _ _
                (@instancesInNodes_perm one _ _ induction) divided.1 start
              dsimp only
              cases resolveSlots (resolveNodes one) divided.1 start with
              | error report =>
                  rw [following, List.append_nil]
                  exact content
              | ok resolved =>
                  dsimp only
                  rw [following, List.cons_append]
                  refine (List.Perm.cons _ (content.append ?_)).trans List.perm_middle.symm
                  cases assemble context definition usage resolved.1 resolved.2 with
                  | error report => exact .refl _
                  | ok assembled => exact same _ _ _

end

theorem encountersWithin_perm (context : Context) (levels : Nat) (stack : List String)
    (nodes : List Node) (progress : Progress) :
    (encountersWithin context levels stack nodes progress).Perm
      (instancesWithin context levels stack nodes progress) := by
  induction levels generalizing stack nodes progress with
  | zero => exact .refl _
  | succ levels induction =>
      rw [encountersWithin, instancesWithin]
      exact instancesInNodes_perm (encountersOf_perm induction stack _) nodes progress

/-! ## Taking definitions one after the other -/

/-- Definitions are used one after the other. -/
def Progress.useAll (progress : Progress) (definitions : List Definition) : Progress :=
  definitions.foldl Progress.use progress

/-- What has been brought together of the components. -/
def Progress.collected (progress : Progress) :
    List String × List String × List (String × Template.Script) :=
  (progress.used, progress.styles, progress.scripts)

theorem Progress.useAll_append (progress : Progress) (first rest : List Definition) :
    progress.useAll (first ++ rest) = (progress.useAll first).useAll rest := List.foldl_append

theorem Progress.use_collected {progress progress' : Progress}
    (same : progress.collected = progress'.collected) (definition : Definition) :
    (progress.use definition).collected = (progress'.use definition).collected := by
  simp only [collected, Prod.mk.injEq] at same
  obtain ⟨used, styles, scripts⟩ := same
  rw [use, use, used]
  split
  · rw [collected, collected, used, styles, scripts]
  · rw [collected, collected, styles, scripts]

theorem Progress.useAll_collected {progress progress' : Progress}
    (same : progress.collected = progress'.collected) (definitions : List Definition) :
    (progress.useAll definitions).collected = (progress'.useAll definitions).collected := by
  induction definitions generalizing progress progress' with
  | nil => exact same
  | cons definition rest induction => exact induction (use_collected same definition)

/-! ## Runs -/

/-- What an action brings together are the definitions of the instances, in order. -/
def Collects {α : Type} (action : Action α) (met : Progress → List Instance) : Prop :=
  ∀ {progress value progress'}, action progress = .ok (value, progress') →
    progress'.collected =
      (progress.useAll ((met progress).map Instance.definition)).collected

/-- Two actions after each other bring together what both do. -/
theorem Collects.append {progress middle last : Progress} {first rest : List Instance}
    (left : middle.collected = (progress.useAll (first.map Instance.definition)).collected)
    (right : last.collected = (middle.useAll (rest.map Instance.definition)).collected) :
    last.collected =
      (progress.useAll ((first ++ rest).map Instance.definition)).collected := by
  rw [right, List.map_append, Progress.useAll_append]
  exact Progress.useAll_collected left _

section

variable {one : Usage → Action (List Node)} {met : Usage → Progress → List Instance}

mutual

theorem resolveNode_collects (collects : ∀ usage, Collects (one usage) (met usage)) :
    ∀ node : Node, Collects (resolveNode one node) (instancesInNode one met node)
  | .component name attributes children site, progress, result, progress', ok => by
      rw [resolveNode] at ok
      rw [instancesInNode]
      exact collects _ ok
  | .element _ _ children _, progress, result, progress', ok
  | .optional _ _ children _, progress, result, progress', ok
  | .loop _ _ _ children _, progress, result, progress', ok => by
      simp only [resolveNode, bind_eq_ok] at ok
      obtain ⟨⟨children', last⟩, below, ok⟩ := ok
      cases ok
      rw [instancesInNode]
      exact resolveNodes_collects collects children below
  | .conditional _ _ consequent alternate _, progress, result, progress', ok => by
      simp only [resolveNode, bind_eq_ok] at ok
      obtain ⟨⟨consequent', middle⟩, first, ⟨alternate', last⟩, second, ok⟩ := ok
      cases ok
      rw [instancesInNode, first, following]
      exact Collects.append (resolveNodes_collects collects consequent first)
        (resolveNodes_collects collects alternate second)
  | .text .., progress, result, progress', ok | .expression _, progress, result, progress', ok
  | .doctype .., progress, result, progress', ok => by
      rw [resolveNode] at ok
      cases ok
      rw [instancesInNode]
      rfl

theorem resolveNodes_collects (collects : ∀ usage, Collects (one usage) (met usage)) :
    ∀ nodes : List Node, Collects (resolveNodes one nodes) (instancesInNodes one met nodes)
  | [], progress, result, progress', ok => by
      rw [resolveNodes] at ok
      cases ok
      rw [instancesInNodes]
      rfl
  | node :: rest, progress, result, progress', ok => by
      simp only [resolveNodes, bind_eq_ok] at ok
      obtain ⟨⟨first', middle⟩, first, ⟨rest', last⟩, second, ok⟩ := ok
      cases ok
      rw [instancesInNodes, first, following]
      exact Collects.append (resolveNode_collects collects node first)
        (resolveNodes_collects collects rest second)

end

end

section

variable {resolve : List Node → Action (List Node)} {met : List Node → Progress → List Instance}

private theorem resolveNamed_collects (collects : ∀ nodes, Collects (resolve nodes) (met nodes))
    (named : List (String × SlotContent)) :
    Collects (resolveNamed resolve named) (instancesInNamed resolve met named) := by
  intro progress named' progress' ok
  induction named generalizing progress named' with
  | nil =>
      cases ok
      rfl
  | cons entry rest induction =>
      simp only [resolveNamed, bind_eq_ok] at ok
      obtain ⟨⟨nodes, middle⟩, first, ⟨others, last⟩, second, ok⟩ := ok
      cases ok
      rw [instancesInNamed, first, following]
      exact Collects.append (collects _ first) (induction second)

theorem resolveSlots_collects (collects : ∀ nodes, Collects (resolve nodes) (met nodes))
    (slots : Slots) :
    Collects (resolveSlots resolve slots) (instancesInSlots resolve met slots) := by
  intro progress slots' progress' ok
  simp only [resolveSlots, bind_eq_ok] at ok
  obtain ⟨⟨nodes, middle⟩, first, ⟨named, last⟩, second, ok⟩ := ok
  cases ok
  rw [instancesInSlots, first, following]
  exact Collects.append (collects _ first) (resolveNamed_collects collects _ second)

end

section

variable {context : Context}

/-- A usage brings along its own definition, what its content does, and what its definition does. -/
theorem instantiate_collects {inside : List String → List Node → Action (List Node)}
    {met : List String → List Node → Progress → List Instance}
    (collects : ∀ stack nodes, Collects (inside stack nodes) (met stack nodes))
    (stack : List String) (depth : Nat) (usage : Usage) :
    Collects (instantiate context inside stack depth usage)
      (encountersOf context inside met stack depth usage) := by
  induction depth generalizing usage with
  | zero => exact fun ok => (nomatch ok)
  | succ depth induction =>
      intro progress result progress' ok
      obtain ⟨definition, slots, middle, slots', resolved, made, assembled, found, divided,
        content, assemble_ok, ok⟩ := instantiate_steps ok
      have filled := resolveSlots_collects (resolveNodes_collects induction) slots content
      have rest := collects _ _ ok
      have kept : assembled.collected = resolved.collected := by
        obtain ⟨-, -, -, -, -, -, -, rfl⟩ := assemble_steps assemble_ok
        rfl
      rw [encountersOf, found]
      dsimp only
      rw [divided]
      dsimp only
      rw [content]
      dsimp only
      rw [assemble_ok, following]
      refine Collects.append ?_ rest
      rw [kept, filled]
      -- dividing the content changes the registry only
      have same : Progress.collected { progress.use definition with registry := middle } =
          (progress.use definition).collected := rfl
      exact Progress.useAll_collected same _

/-- What replacing all usages brings together are the definitions in the order of the run. -/
theorem resolveWithin_collects (context : Context) (levels : Nat) (stack : List String)
    (nodes : List Node) :
    Collects (resolveWithin context levels stack nodes)
      (encountersWithin context levels stack nodes) := by
  induction levels generalizing stack nodes with
  | zero => exact fun ok => (nomatch ok)
  | succ levels induction =>
      intro progress result progress' ok
      rw [resolveWithin] at ok
      rw [encountersWithin]
      exact resolveNodes_collects (instantiate_collects induction stack _) nodes ok

end

/-! ## What is brought together -/

/-- The styles of the component with the given name. -/
def stylesOf (library : Library) (name : String) : List String :=
  ((library.get? name).map Definition.styles).getD []

/-- The script of the component with the given name, if it has one. -/
def scriptOf? (library : Library) (name : String) : Option (String × Template.Script) :=
  (library.get? name).bind fun definition => definition.script.map fun script => (name, script)

/-- Components are listed once, and what they bring along is listed in their order. -/
structure Progress.Orderly (library : Library) (progress : Progress) : Prop where
  /-- No component is listed twice. -/
  distinct : progress.used.Nodup
  /-- The styles are those of the components. -/
  styles : progress.styles = progress.used.flatMap (stylesOf library)
  /-- The scripts are those of the components. -/
  scripts : progress.scripts = progress.used.filterMap (scriptOf? library)

section

variable {library : Library} {progress : Progress} {definition : Definition}

/-- A definition adds its name, its styles and its script, unless it has been used before. -/
theorem Progress.Orderly.use (orderly : progress.Orderly library)
    (known : library.get? definition.name = some definition) :
    (progress.use definition).Orderly library := by
  have own : stylesOf library definition.name = definition.styles := by simp [stylesOf, known]
  have script : scriptOf? library definition.name =
      definition.script.map fun script => (definition.name, script) := by simp [scriptOf?, known]
  rw [Progress.use]
  split
  · exact orderly
  · rename_i fresh
    rw [List.contains_iff_mem] at fresh
    refine ⟨?_, ?_, ?_⟩
    · rw [List.nodup_append_comm, List.singleton_append, List.nodup_cons]
      exact ⟨fresh, orderly.distinct⟩
    · simp only [List.flatMap_append, List.flatMap_singleton, own, orderly.styles]
    · simp only [List.filterMap_append, orderly.scripts, List.filterMap_cons, script,
        List.filterMap_nil]
      cases definition.script <;> rfl

theorem Progress.Orderly.useAll (orderly : progress.Orderly library) {definitions : List Definition}
    (known : ∀ definition ∈ definitions, library.get? definition.name = some definition) :
    (progress.useAll definitions).Orderly library := by
  induction definitions generalizing progress with
  | nil => exact orderly
  | cons definition rest induction =>
      rw [List.forall_mem_cons] at known
      exact induction (orderly.use known.1) known.2

/-- Components are listed in the order of their first uses. -/
theorem Progress.used_useAll (unused : progress.used = []) (definitions : List Definition) :
    (progress.useAll definitions).used = (definitions.map Definition.name).eraseDups := by
  induction definitions using List.reverseRecOn with
  | nil => simpa [useAll] using unused
  | append_singleton former definition induction =>
      rw [useAll_append, List.map_append, List.eraseDups_append, ← induction]
      have listed (name : String) : name ∈ (progress.useAll former).used ↔
          name ∈ former.map Definition.name := by
        rw [induction, List.mem_eraseDups]
      generalize progress.useAll former = before, former.map Definition.name = names at listed ⊢
      rw [useAll, List.foldl_cons, List.foldl_nil, use]
      split
      · rename_i again
        rw [List.contains_iff_mem, listed] at again
        simp [List.removeAll, again]
      · rename_i fresh
        rw [List.contains_iff_mem, listed] at fresh
        simp [List.removeAll, List.eraseDups_cons, fresh]

end

/-! ## Definitions of a run -/

section

variable {holds : Instance → Prop}

section

variable {one : Usage → Action (List Node)} {met : Usage → Progress → List Instance}

mutual

theorem forall_instancesInNode (all : ∀ usage progress, ∀ each ∈ met usage progress, holds each) :
    ∀ (node : Node) (progress : Progress),
      ∀ each ∈ instancesInNode one met node progress, holds each
  | .component name attributes children site, progress => by
      rw [instancesInNode]
      exact all _ _
  | .element _ _ children _, progress | .optional _ _ children _, progress
  | .loop _ _ _ children _, progress => by
      rw [instancesInNode]
      exact forall_instancesInNodes all children progress
  | .conditional _ _ consequent alternate _, progress => by
      rw [instancesInNode, List.forall_mem_append]
      refine ⟨forall_instancesInNodes all consequent progress, ?_⟩
      cases resolveNodes one consequent progress with
      | error report => exact fun _ member => (nomatch member)
      | ok result => exact forall_instancesInNodes all alternate result.2
  | .text .., progress | .expression _, progress | .doctype .., progress => by
      rw [instancesInNode]
      exact fun _ member => (nomatch member)

theorem forall_instancesInNodes (all : ∀ usage progress, ∀ each ∈ met usage progress, holds each) :
    ∀ (nodes : List Node) (progress : Progress),
      ∀ each ∈ instancesInNodes one met nodes progress, holds each
  | [], progress => by
      rw [instancesInNodes]
      exact fun _ member => (nomatch member)
  | node :: rest, progress => by
      rw [instancesInNodes, List.forall_mem_append]
      refine ⟨forall_instancesInNode all node progress, ?_⟩
      cases resolveNode one node progress with
      | error report => exact fun _ member => (nomatch member)
      | ok result => exact forall_instancesInNodes all rest result.2

end

end

section

variable {resolve : List Node → Action (List Node)} {met : List Node → Progress → List Instance}

private theorem forall_instancesInNamed
    (all : ∀ nodes progress, ∀ each ∈ met nodes progress, holds each)
    (named : List (String × SlotContent)) (progress : Progress) :
    ∀ each ∈ instancesInNamed resolve met named progress, holds each := by
  induction named generalizing progress with
  | nil =>
      intro each member
      cases member
  | cons entry rest induction =>
      rw [instancesInNamed, List.forall_mem_append]
      refine ⟨all _ _, ?_⟩
      cases resolve entry.2.nodes progress with
      | error report =>
          intro each member
          cases member
      | ok result => exact induction result.2

theorem forall_instancesInSlots
    (all : ∀ nodes progress, ∀ each ∈ met nodes progress, holds each) (slots : Slots)
    (progress : Progress) :
    ∀ each ∈ instancesInSlots resolve met slots progress, holds each := by
  rw [instancesInSlots, List.forall_mem_append]
  refine ⟨all _ _, ?_⟩
  cases resolve slots.default.nodes progress with
  | error report =>
      intro each member
      cases member
  | ok result => exact forall_instancesInNamed all _ result.2

end

end

/-- The usage refers to the definition. -/
def Instance.Refers (library : Library) (made : Instance) : Prop :=
  library.lookup? made.usage.name = some made.definition

section

variable {context : Context}

theorem encountersOf_refers {inside : List String → List Node → Action (List Node)}
    {met : List String → List Node → Progress → List Instance}
    (all : ∀ stack nodes progress, ∀ each ∈ met stack nodes progress, each.Refers context.library)
    (stack : List String) (depth : Nat) (usage : Usage) (progress : Progress) :
    ∀ each ∈ encountersOf context inside met stack depth usage progress,
      each.Refers context.library := by
  induction depth generalizing usage progress with
  | zero => exact fun _ member => (nomatch member)
  | succ depth induction =>
      rw [encountersOf]
      split
      · exact fun _ member => (nomatch member)
      · rename_i definition found
        split
        · exact fun _ member => (nomatch member)
        · rename_i slots registry divided
          dsimp only
          split
          · exact forall_instancesInSlots (forall_instancesInNodes induction) _ _
          · rename_i slots' progress' resolved
            rw [List.forall_mem_append, List.forall_mem_cons]
            refine ⟨⟨definitionOf_lookup found,
              forall_instancesInSlots (forall_instancesInNodes induction) _ _⟩, ?_⟩
            cases assemble context definition usage slots' progress' with
            | error report => exact fun _ member => (nomatch member)
            | ok assembled => exact all _ _ _

theorem encountersWithin_refers (context : Context) (levels : Nat) (stack : List String)
    (nodes : List Node) (progress : Progress) :
    ∀ each ∈ encountersWithin context levels stack nodes progress,
      each.Refers context.library := by
  induction levels generalizing stack nodes progress with
  | zero => exact fun _ member => (nomatch member)
  | succ levels induction =>
      rw [encountersWithin]
      exact forall_instancesInNodes (encountersOf_refers induction stack _) nodes progress

end

section

variable {library : Library} {file : String} {nodes : List Node} {registry after : Registry}
  {resolution : Resolution}

/-- The components of a page are listed once, in the order in which the run first comes to a usage
that refers to them, and their styles and scripts are listed in the order of the components. -/
theorem resolve_collects (own : ∀ entry ∈ library.entries, entry.2.name = entry.1)
    (ok : resolve library file nodes registry = .ok (resolution, after)) :
    let met := encounters library file nodes registry
    met.Perm (instances library file nodes registry) ∧
      (∀ each ∈ met, library.lookup? each.usage.name = some each.definition) ∧
      resolution.used = (met.map fun each => each.definition.name).eraseDups ∧
      resolution.used.Nodup ∧
      (∀ name, name ∈ resolution.used ↔ ∃ each ∈ met, each.definition.name = name) ∧
      resolution.styles = resolution.used.flatMap (stylesOf library) ∧
      resolution.scripts = resolution.used.filterMap (scriptOf? library) := by
  have refers := encountersWithin_refers ⟨library, file⟩ (library.entries.length + 1) [] nodes
    { registry }
  have same := encountersWithin_perm ⟨library, file⟩ (library.entries.length + 1) [] nodes
    { registry }
  rw [resolve] at ok
  split at ok
  · cases ok
  · rename_i resolved
    cases ok
    have collected := resolveWithin_collects ⟨library, file⟩ _ _ _ resolved
    simp only [Progress.collected, Prod.mk.injEq] at collected
    obtain ⟨used, styles, scripts⟩ := collected
    have known : ∀ definition ∈ (encountersWithin ⟨library, file⟩ (library.entries.length + 1) []
        nodes { registry }).map Instance.definition,
        library.get? definition.name = some definition := by
      intro definition member
      obtain ⟨each, listed, rfl⟩ := List.mem_map.mp member
      obtain ⟨key, found⟩ := Library.get?_of_lookup? (refers each listed)
      have named : each.definition.name = key := own _ (mem_of_lookup found)
      rwa [named]
    have start : ({ registry } : Progress).Orderly library := ⟨List.nodup_nil, rfl, rfl⟩
    have orderly := start.useAll known
    have order := used.trans (Progress.used_useAll rfl _)
    rw [List.map_map] at order
    refine ⟨same, refers, order, ?_, ?_, ?_, ?_⟩
    · dsimp only
      rw [used]
      exact orderly.distinct
    · intro name
      dsimp only
      rw [order, List.mem_eraseDups, List.mem_map]
      rfl
    · dsimp only
      rw [used, styles]
      exact orderly.styles
    · dsimp only
      rw [used, scripts]
      exact orderly.scripts

end

/-- A card shows a note before its content. -/
def notedCard : Definition where
  name := "Card"
  path := "Card.zen"
  nodes := [.component "Note" [] [] {}, .element "slot" [] [] {}]
  slots := ["default"]
  props := []
  styles := ["p {}", "b {}"]
  script := some ⟨"open()", []⟩

/-- A note has a script and no styles. -/
def loudNote : Definition where
  name := "Note"
  path := "Note.zen"
  nodes := [.element "p" [] [] {}]
  slots := ["default"]
  props := []
  styles := []
  script := some ⟨"ring()", []⟩

/-- A badge has styles and no script. -/
def plainBadge : Definition where
  name := "Badge"
  path := "Badge.zen"
  nodes := [.element "b" [] [] {}]
  slots := ["default"]
  props := []
  styles := ["i {}"]
  script := none

/-- The badge in the content of a card comes before the note, although the card shows the note
first, and it is not taken again after the card. -/
theorem resolve_collects_card :
    let library : Library := ⟨[("Badge", plainBadge), ("Card", notedCard), ("Note", loudNote)]⟩
    let page : List Node :=
      [.component "Card" [] [.component "Badge" [] [] {}] {}, .component "Badge" [] [] {}]
    (∀ entry ∈ library.entries, entry.2.name = entry.1) ∧
    ∃ resolution after,
      resolve library "page.zen" page {} = .ok (resolution, after) ∧
      resolution.used = ["Card", "Badge", "Note"] ∧
      resolution.styles = ["p {}", "b {}", "i {}"] ∧
      resolution.scripts.map (fun entry => (entry.1, entry.2.raw)) =
        [("Card", "open()"), ("Note", "ring()")] := by
  intro library page
  have own : ∀ entry ∈ library.entries, entry.2.name = entry.1 := by decide +kernel
  have order : ((encounters library "page.zen" page {}).map fun each => each.definition.name) =
      ["Card", "Badge", "Note", "Badge"] := by
    decide +kernel
  have evaluates : (resolve library "page.zen" page {}).toOption.any (fun _ => true) = true := by
    decide +kernel
  obtain ⟨⟨resolution, after⟩, ok, -⟩ := exists_ok _ evaluates
  obtain ⟨-, -, used, -, -, styles, scripts⟩ := resolve_collects own ok
  have once : ["Card", "Badge", "Note", "Badge"].eraseDups = ["Card", "Badge", "Note"] := by
    decide +kernel
  rw [order, once] at used
  rw [used] at styles scripts
  refine ⟨own, resolution, after, ok, used, styles.trans ?_, ?_⟩
  · decide +kernel
  · rw [scripts]
    decide +kernel

end Component
end ReactiveTemplate
