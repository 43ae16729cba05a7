import Mathlib.Data.List.Chain
import ReactiveTemplate.Proofs.Component.Completeness
import ReactiveTemplate.Proofs.Component.Renaming
import ReactiveTemplate.Proofs.Component.Termination
import ReactiveTemplate.Proofs.Fragment.Faults

/-!
# Definitions that contain themselves

A usage that is met with some stack stands in the template of the definition on top of the stack:
content that is placed there has been resolved, so that no usage of the page comes with it.  Hence
in a chain that is reported each definition contains the next one, and the report is about a cycle
of definitions.
-/

namespace ReactiveTemplate
namespace Node

/-! ## Parts of a tree -/

mutual

theorem allNodes_subset_of_mem_leaves {leaf : Node} :
    ∀ {node : Node}, leaf ∈ leaves node → allNodes leaf ⊆ allNodes node
  | .element _ _ children _, member | .optional _ _ children _, member
  | .loop _ _ _ children _, member => by
      rw [leaves] at member
      rw [allNodes]
      exact List.subset_cons_of_subset _ (allNodes_subset_of_mem_leavesOfList member)
  | .conditional _ _ consequent alternate _, member => by
      rw [leaves, List.mem_append] at member
      rw [allNodes]
      refine List.subset_cons_of_subset _ ?_
      rcases member with first | second
      · exact List.subset_append_of_subset_left _ (allNodes_subset_of_mem_leavesOfList first)
      · exact List.subset_append_of_subset_right _ (allNodes_subset_of_mem_leavesOfList second)
  | .component .., member | .text .., member | .expression _, member | .doctype .., member => by
      rw [leaves, List.mem_singleton] at member
      rw [member]
      exact List.Subset.refl _

theorem allNodes_subset_of_mem_leavesOfList {leaf : Node} :
    ∀ {nodes : List Node}, leaf ∈ leavesOfList nodes → allNodes leaf ⊆ allNodesOfList nodes
  | node :: rest, member => by
      rw [leavesOfList, List.mem_append] at member
      rw [allNodesOfList]
      rcases member with first | later
      · exact List.subset_append_of_subset_left _ (allNodes_subset_of_mem_leaves first)
      · exact List.subset_append_of_subset_right _ (allNodes_subset_of_mem_leavesOfList later)

end

theorem Everywhere.leaf {holds : Node → Prop} {nodes : List Node} {leaf : Node}
    (everywhere : Everywhere holds nodes) (member : leaf ∈ leavesOfList nodes) :
    Everywhere holds [leaf] := by
  intro node below
  rw [allNodesOfList, allNodesOfList, List.append_nil] at below
  exact everywhere node (allNodes_subset_of_mem_leavesOfList member below)

/-- A usage has an allowed name. -/
def Label.Named (allowed : String → Prop) : Label → Prop
  | .usage name _ => allowed name
  | _ => True

/-- Settled nodes have no usages. -/
theorem Label.Settled.named {allowed : Label → Prop} {used : String → Prop} {nodes : List Node}
    (settled : Everywhere (Labelled (Settled allowed)) nodes) :
    Everywhere (Labelled (Named used)) nodes := by
  intro node member
  have own := settled node member
  cases node with
  | component => exact own.elim
  | _ => trivial

end Node

namespace Component

open Node

/-! ## Where a failure comes from -/

section Failures

variable {report : Diagnostic} {one : Usage → Action (List Node)}

mutual

theorem resolveNode_eq_error :
    ∀ {node : Node} {progress : Progress}, resolveNode one node progress = .error report →
      ∃ usage : Usage, usage.node ∈ leaves node ∧ ∃ before, one usage before = .error report
  | .component name attributes children site, progress, failed => by
      rw [resolveNode] at failed
      exact ⟨⟨name, attributes, children, site⟩, List.mem_singleton_self _, progress, failed⟩
  | .element _ _ children _, progress, failed | .optional _ _ children _, progress, failed
  | .loop _ _ _ children _, progress, failed => by
      simp only [resolveNode, bind_eq_error] at failed
      rcases failed with failed | ⟨_, -, ended⟩
      · exact resolveNodes_eq_error failed
      · cases ended
  | .conditional _ _ consequent alternate _, progress, failed => by
      simp only [resolveNode, bind_eq_error] at failed
      rcases failed with failed | ⟨_, -, failed | ⟨_, -, ended⟩⟩
      · obtain ⟨usage, member, found⟩ := resolveNodes_eq_error failed
        exact ⟨usage, List.mem_append_left _ member, found⟩
      · obtain ⟨usage, member, found⟩ := resolveNodes_eq_error failed
        exact ⟨usage, List.mem_append_right _ member, found⟩
      · cases ended
  | .text .., progress, failed | .expression _, progress, failed
  | .doctype .., progress, failed => by
      rw [resolveNode] at failed
      cases failed

/-- Nodes are refused because of one of their usages. -/
theorem resolveNodes_eq_error :
    ∀ {nodes : List Node} {progress : Progress}, resolveNodes one nodes progress = .error report →
      ∃ usage : Usage, usage.node ∈ leavesOfList nodes ∧ ∃ before, one usage before = .error report
  | [], progress, failed => by
      rw [resolveNodes] at failed
      cases failed
  | node :: rest, progress, failed => by
      simp only [resolveNodes, bind_eq_error] at failed
      rcases failed with failed | ⟨_, -, failed | ⟨_, -, ended⟩⟩
      · obtain ⟨usage, member, found⟩ := resolveNode_eq_error failed
        exact ⟨usage, List.mem_append_left _ member, found⟩
      · obtain ⟨usage, member, found⟩ := resolveNodes_eq_error failed
        exact ⟨usage, List.mem_append_right _ member, found⟩
      · cases ended

end

variable {resolve : List Node → Action (List Node)} {progress : Progress}

private theorem resolveNamed_eq_error {named : List (String × SlotContent)}
    (failed : resolveNamed resolve named progress = .error report) :
    ∃ content ∈ named.map (·.2), ∃ before, resolve content.nodes before = .error report := by
  induction named generalizing progress with
  | nil => cases failed
  | cons entry rest induction =>
      simp only [resolveNamed, bind_eq_error] at failed
      rcases failed with failed | ⟨_, -, failed | ⟨_, -, ended⟩⟩
      · exact ⟨entry.2, List.mem_cons_self, progress, failed⟩
      · obtain ⟨content, member, found⟩ := induction failed
        exact ⟨content, List.mem_cons_of_mem _ member, found⟩
      · cases ended

theorem resolveSlots_eq_error {slots : Slots}
    (failed : resolveSlots resolve slots progress = .error report) :
    ∃ content ∈ slots.contents, ∃ before, resolve content.nodes before = .error report := by
  simp only [resolveSlots, bind_eq_error] at failed
  rcases failed with failed | ⟨_, -, failed | ⟨_, -, ended⟩⟩
  · exact ⟨slots.default, List.mem_cons_self, progress, failed⟩
  · obtain ⟨content, member, found⟩ := resolveNamed_eq_error failed
    have listed := List.Perm.subset (List.Perm.map _ (List.mergeSort_perm _ _)) member
    exact ⟨content, List.mem_cons_of_mem _ listed, found⟩
  · cases ended

variable {context : Context} {definition : Definition} {usage : Usage} {stack : List String}

variable {rule : Rule}

theorem Slots.divide_spares (declared : Rule.slotDeclared ≠ rule) (definition : Definition)
    (scope : Option Scope) (slots : Slots) (registry : Registry) (children : List Node) :
    Spares rule (divide definition scope slots registry children) fun _ => True := by
  induction children generalizing slots registry with
  | nil => trivial
  | cons child rest induction =>
      cases child with
      | component name attributes children site =>
          rw [divide]
          split
          · split
            · exact induction _ _
            · exact declared
          · exact induction _ _
      | _ => exact induction _ _

theorem forward_spares (landed : Rule.attributesForwarded ≠ rule) (definition : Definition)
    (location : Location) (forwarded : List Attribute) (registry : Registry) (nodes : List Node) :
    Spares rule (forward definition location forwarded registry nodes) fun _ => True := by
  induction nodes with
  | nil =>
      cases forwarded with
      | nil => trivial
      | cons attr rest => exact landed
  | cons node rest induction =>
      cases node with
      | element | component => trivial
      | _ =>
          rw [forward.eq_def]
          dsimp only
          split
          · trivial
          · rename_i failed
            exact induction.error_rule_ne failed

theorem assemble_rule_ne {slots : Slots} (wellFormed : Rule.wellFormed ≠ rule)
    (enumerable : Rule.enumerableMarkup ≠ rule) (crash : Rule.crash ≠ rule)
    (landed : Rule.attributesForwarded ≠ rule)
    (failed : assemble context definition usage slots progress = .error report) :
    report.rule ≠ rule := by
  simp only [assemble, copy, bind_eq_error] at failed
  rcases failed with (failed | ⟨_, -, ended⟩) | ⟨_, -, failed | ⟨_, -, ended⟩⟩
  · exact Fragment.lower_rule_ne wellFormed enumerable crash failed
  · cases ended
  · exact (forward_spares landed ..).rule_ne failed
  · cases ended

/-- The phases in which the replacement of a usage can fail. -/
theorem replace_eq_error {content : List Node → Action (List Node)}
    {inside : List String → List Node → Action (List Node)}
    (failed : replace context content inside stack usage progress = .error report) :
    reportIn context.file (definitionOf context stack usage) = .error report ∨
      ∃ definition, definitionOf context stack usage = .ok definition ∧
        (reportIn context.file (Slots.divide definition usage.site.scope {} progress.registry
          usage.children) = .error report ∨
        ∃ slots middle, Slots.divide definition usage.site.scope {} progress.registry
            usage.children = .ok (slots, middle) ∧
          let start := { progress.use definition with registry := middle }
          (resolveSlots content slots start = .error report ∨
          ∃ slots' resolved, resolveSlots content slots start = .ok (slots', resolved) ∧
            (assemble context definition usage slots' resolved = .error report ∨
            ∃ made assembled,
              assemble context definition usage slots' resolved = .ok (made, assembled) ∧
              inside (stack ++ [definition.name]) made assembled = .error report))) := by
  simp only [replace, bind_eq_error, reportIn_eq_ok, Progress.use_registry, Prod.exists] at failed
  exact failed

end Failures

/-! ## Which definitions contain which -/

/-- The template of a definition: a copy of its nodes, with fragments in place of expressions with
markup. -/
def template (definition : Definition) : Except Diagnostic (List Node × Registry) :=
  Fragment.lower (Node.rekey {} definition.nodes).1 definition.path
    (Node.rekey {} definition.nodes).2

/-- The template of the definition with the first name has a usage in it that refers to the
definition with the second name. -/
def Includes (library : Library) (name next : String) : Prop :=
  ∃ definition, (name, definition) ∈ library.entries ∧
    ∃ nodes after, template definition = .ok (nodes, after) ∧
      ∃ usage : Usage, usage.node ∈ allNodesOfList nodes ∧
        ∃ other, library.lookup? usage.name = some other ∧ other.name = next

/-- A copy is the template with other expressions, whatever else is registered. -/
theorem copy_template {definition : Definition} {usage : Usage} {registry after : Registry}
    {made : List Node} (ok : copy definition usage registry = .ok (made, after)) :
    ∃ nodes last, template definition = .ok (nodes, last) ∧ Alike Anything nodes made := by
  obtain ⟨lowered, middle, lower_ok, rfl, -⟩ := copy_steps ok
  -- any two ids may stand for each other
  let anyId (_ _ : String) : Prop := True
  obtain ⟨loops, enclosed⟩ := exists_enclosedAll definition.nodes
  have inStep : Registry.InStep anyId {} registry := fun _ _ => trivial
  obtain ⟨rekeyed, start⟩ := Node.rekey_renamed .eq (fun _ _ _ _ => trivial) enclosed
    (.refl (fun _ => rfl) definition.nodes) inStep
  rcases (Fragment.lower_renamed definition.path rekeyed start).error_or_ok with
    ⟨_, -, failed⟩ | ⟨⟨nodes, last⟩, _, both, template_ok, lowered_ok⟩
  · rw [lower_ok] at failed
    cases failed
  · rw [lower_ok] at lowered_ok
    cases lowered_ok
    refine ⟨nodes, last, template_ok, ?_⟩
    have anything {t : Traversal Registry} : ∀ state e, Anything e (t.expression state e).1 :=
      fun _ _ => trivial
    have always (e e' e'' : Expression) (_ : Anything e e') (_ : Anything e' e'') :
        Anything e e'' := trivial
    refine Alike.trans always ?_ (Traversal.nodes_alike anything _ _)
    rw [Definition.substitute]
    split
    · exact both.1.alike.anything
    · exact both.1.alike.anything.trans always (Traversal.nodes_alike anything _ _)

section Chains

variable {library : Library} {context : Context} {stack : List String}

/-- What a name refers to is in the template of the definition on top of the stack. -/
def Reached (library : Library) (stack : List String) (name : String) : Prop :=
  ∀ top ∈ stack.getLast?, ∀ other, library.lookup? name = some other →
    Includes library top other.name

/-- The report is about a chain of definitions each of which contains the next one, and the last of
which is met before. -/
def Circular (library : Library) (file : String) (report : Diagnostic) : Prop :=
  ∃ chain name location,
    report = (Fault.recursiveComponent name (chain ++ [name])).report file location ∧
      name ∈ chain ∧ (chain ++ [name]).IsChain (Includes library)

theorem isChain_push {name : String} {other : Definition}
    (chain : stack.IsChain (Includes library)) (reached : Reached library stack name)
    (found : library.lookup? name = some other) :
    (stack ++ [other.name]).IsChain (Includes library) := by
  refine List.isChain_append.mpr ⟨chain, .singleton _, fun top last next first => ?_⟩
  rw [List.head?_singleton, Option.mem_some_iff] at first
  exact first ▸ reached top last other found

/-- A usage that is refused as recursive refers to a definition on the stack. -/
theorem definitionOf_eq_error {usage : Usage} {fault : Fault} {location : Location}
    (failed : definitionOf context stack usage = .error (fault, location))
    (rule : fault.rule = .noRecursion) :
    ∃ definition, context.library.lookup? usage.name = some definition ∧
      definition.name ∈ stack ∧
      fault = .recursiveComponent definition.name (stack ++ [definition.name]) := by
  rw [definitionOf] at failed
  split at failed
  · cases failed
    cases rule
  · split at failed
    · cases failed
      cases rule
    · rename_i definition found
      split at failed
      · rename_i member
        cases failed
        exact ⟨definition, found, List.contains_iff_mem.mp member, rfl⟩
      · cases failed

/-- All usages of a template are reached with its definition on top of the stack. -/
theorem template_reached {definition : Definition} {nodes : List Node} {after : Registry}
    (listed : (definition.name, definition) ∈ library.entries)
    (ok : template definition = .ok (nodes, after)) :
    Everywhere (Labelled (Label.Named (Reached library (stack ++ [definition.name])))) nodes := by
  intro node member
  cases node with
  | component name attributes children site =>
      intro top last other found
      rw [List.getLast?_concat, Option.mem_some_iff] at last
      subst last
      exact ⟨definition, listed, nodes, after, ok, ⟨name, attributes, children, site⟩, member,
        other, found, rfl⟩
  | _ => trivial

/-- Answers have no usages in them. -/
theorem answer_settles (context : Context) (stack : List String) (usage : Usage) :
    Settles (fun _ => True) (answer context stack usage) [usage.node] :=
  have anything := durable_anything context.library
  instantiate_settles anything (resolveWithin_settles context anything _) stack _ usage

/-- An instance has the usages of the template only: content has been resolved before. -/
theorem assemble_reached (own : ∀ entry ∈ context.library.entries, entry.2.name = entry.1)
    {usage : Usage} {definition : Definition} {slots slots' : Slots}
    {start resolved assembled : Progress} {made : List Node}
    (found : definitionOf context stack usage = .ok definition)
    (content : resolveSlots (resolveNodes (answer context stack)) slots start =
      .ok (slots', resolved))
    (ok : assemble context definition usage slots' resolved = .ok (made, assembled)) :
    Everywhere (Labelled (Label.Named (Reached context.library (stack ++ [definition.name]))))
      made := by
  obtain ⟨key, listed⟩ := Library.mem_of_lookup? (definitionOf_lookup found)
  have named : definition.name = key := own _ listed
  subst named
  refine assemble_labelled (fun copy_ok node member _ => ?_)
    (fun _ => ⟨fun _ => id, fun _ => id⟩) ?_ ok
  · obtain ⟨nodes, last, template_ok, alike⟩ := copy_template copy_ok
    exact alike.labelled (template_reached listed template_ok) node member
  · refine resolveSlots_contents (fun part _ _ result _ part_ok => ?_) content
    exact Label.Settled.named (resolveNodes_settles (answer_settles context stack) part.nodes
      (fun _ _ => trivial) part_ok)

/-- A chain that is reported is a chain of definitions: the stack is one, and every call keeps to
the usages of the template on top of it. -/
theorem answer_circular (own : ∀ entry ∈ context.library.entries, entry.2.name = entry.1)
    (stack : List String) (proper : ProperStack context.library stack)
    (chain : stack.IsChain (Includes context.library)) (usage : Usage)
    (reached : Everywhere (Labelled (Label.Named (Reached context.library stack))) [usage.node])
    {progress : Progress} {report : Diagnostic}
    (failed : answer context stack usage progress = .error report)
    (rule : report.rule = .noRecursion) : Circular context.library context.file report := by
  rw [answer_eq_call own proper, call] at failed
  rw [everywhere_singleton] at reached
  rcases replace_eq_error failed with failed | ⟨definition, found, failed | ⟨slots, middle,
    divided, failed | ⟨slots', resolved, content, failed | ⟨made, assembled, ok, failed⟩⟩⟩⟩
  · obtain ⟨fault, location, refused, rfl⟩ := reportIn_eq_error.mp failed
    obtain ⟨definition, found, member, rfl⟩ := definitionOf_eq_error refused rule
    exact ⟨stack, definition.name, location, rfl, member, isChain_push chain reached.1 found⟩
  · exact absurd rule ((Slots.divide_spares (by decide) ..).rule_ne failed)
  · obtain ⟨part, member, before, failed⟩ := resolveSlots_eq_error failed
    obtain ⟨inner, leaf, before, failed⟩ := resolveNodes_eq_error failed
    have below := reached.2 usage.children (List.mem_singleton_self _)
    have empty : ({} : Slots).Labelled (Label.Named (Reached context.library stack)) := by
      simp [Slots.Labelled, Slots.contents]
    have labelled := Slots.divide_labelled empty below divided part member
    have lower : heightOfList inner.children < heightOfList usage.children :=
      Nat.lt_of_lt_of_le (inner.height_lt_of_mem_leaves leaf)
        (Slots.divide_height divided part member)
    exact answer_circular own stack proper chain inner (labelled.leaf leaf) failed rule
  · exact absurd rule (assemble_rule_ne (by decide) (by decide) (by decide) (by decide) failed)
  · obtain ⟨inner, leaf, before, failed⟩ := resolveNodes_eq_error failed
    have labelled := assemble_reached own found content ok
    have pushed := proper.push own found
    have longer := isChain_push chain reached.1 (definitionOf_lookup found)
    have room : context.library.entries.length - (stack ++ [definition.name]).length <
        context.library.entries.length - stack.length := by
      have bound := pushed.length_le
      rw [List.length_append, List.length_singleton] at bound ⊢
      omega
    exact answer_circular own _ pushed longer inner (labelled.leaf leaf) failed rule
termination_by (context.library.entries.length - stack.length, heightOfList usage.children)
decreasing_by
  · exact Prod.Lex.right _ lower
  · exact Prod.Lex.left _ _ room

/-- In a circular chain there is a definition that contains itself. -/
theorem Circular.exists_cycle {file : String} {report : Diagnostic}
    (circular : Circular library file report) :
    ∃ name, Relation.TransGen (Includes library) name name := by
  obtain ⟨chain, name, location, -, member, linked⟩ := circular
  obtain ⟨before, after, rfl⟩ := List.append_of_mem member
  rw [List.append_assoc, List.cons_append] at linked
  have around : (name :: (after ++ [name])).IsChain (Relation.TransGen (Includes library)) :=
    linked.right_of_append.imp fun _ _ => .single
  exact ⟨name, around.rel_cons (List.mem_append_right _ (List.mem_singleton_self _))⟩

end Chains

/-- A page is refused as recursive only if some definitions contain each other in a circle. -/
theorem resolve_circular {library : Library}
    (own : ∀ entry ∈ library.entries, entry.2.name = entry.1) {file : String}
    {nodes : List Node} {registry : Registry} {report : Diagnostic}
    (failed : resolve library file nodes registry = .error report)
    (rule : report.rule = .noRecursion) : Circular library file report := by
  rw [resolve_eq_conclude] at failed
  cases outcome : resolveNodes (answer ⟨library, file⟩ []) nodes { registry } with
  | ok resolved =>
      rw [outcome] at failed
      cases failed
  | error found =>
      rw [outcome] at failed
      cases failed
      obtain ⟨usage, leaf, before, refused⟩ := resolveNodes_eq_error outcome
      -- nothing is on the stack yet that a usage of the page would have to be in
      have reached : Everywhere (Labelled (Label.Named (Reached library []))) nodes := by
        intro node _
        cases node with
        | component => exact fun _ member => by cases member
        | _ => trivial
      exact answer_circular own [] (.nil library) .nil usage (reached.leaf leaf) refused rule

/-- Resolution is what the recursion without bounds comes to, which ends on every page and makes
calls with distinct names of the library on the stack only.  If it reports a definition that
contains itself, there is one: each definition in the reported chain contains the next one, and the
last is met before. -/
theorem resolve_terminates {library : Library}
    (own : ∀ entry ∈ library.entries, entry.2.name = entry.1) (file : String)
    (nodes : List Node) (registry : Registry) :
    (∀ outcome, Ends ⟨library, file⟩ (ProperStack library)
        (fun answers => conclude (resolveNodes (answers []) nodes { registry })) outcome ↔
      outcome = resolve library file nodes registry) ∧
    (∀ report, resolve library file nodes registry = .error report →
      report.rule = .noRecursion → Circular library file report) ∧
    ((∀ name, ¬ Relation.TransGen (Includes library) name name) →
      ∀ report, resolve library file nodes registry = .error report →
        report.rule ≠ .noRecursion) := by
  have ends := resolve_ends own file nodes registry
  refine ⟨fun outcome => ⟨fun ends' => ends'.unique ends, fun same => same ▸ ends⟩,
    fun report => resolve_circular own, fun acyclic report failed rule => ?_⟩
  obtain ⟨name, cycle⟩ := (resolve_circular own failed rule).exists_cycle
  exact acyclic name cycle

/-- A component that uses `Pong`. -/
def ping : Definition := Notices.plainDefinition "Ping"
  [.element "div" [] [.component "Pong" [] [] {}] {}]

/-- A component that uses `Ping` in markup inside code, as content of another component. -/
def pong : Definition := Notices.plainDefinition "Pong"
  [.element "p" [] [.expression ⟨"expr_0", "on && <Box><Ping/></Box>", {}, none⟩] {}]

/-- A component that shows its content. -/
def box : Definition := Notices.plainDefinition "Box" [.element "slot" [] [] {}]

/-- The two components contain each other. -/
theorem resolve_terminates_ping :
    let library : Library := ⟨[("Box", box), ("Ping", ping), ("Pong", pong)]⟩
    let page : List Node := [.component "Box" [] [.component "Ping" [] [] {}] {}]
    ∃ report, resolve library "page.zen" page {} = .error report ∧
      report.rule = .noRecursion ∧ report.context = some "Ping -> Pong -> Ping" ∧
      Ends ⟨library, "page.zen"⟩ (ProperStack library)
        (fun answers => conclude (resolveNodes (answers []) page { registry := {} }))
        (.error report) ∧
      Circular library "page.zen" report ∧
      ¬ ∀ name, ¬ Relation.TransGen (Includes library) name name := by
  intro library page
  have own : ∀ entry ∈ library.entries, entry.2.name = entry.1 := by
    decide +kernel
  have evaluates : (match resolve library "page.zen" page {} with
      | .ok _ => false
      | .error report => decide (report.rule = .noRecursion) &&
        decide (report.context = some "Ping -> Pong -> Ping")) = true := by
    decide +kernel
  obtain ⟨ends, circular, acyclic⟩ := resolve_terminates own "page.zen" page {}
  cases outcome : resolve library "page.zen" page {} with
  | ok resolution =>
      rw [outcome] at evaluates
      cases evaluates
  | error report =>
      rw [outcome, Bool.and_eq_true, decide_eq_true_eq, decide_eq_true_eq] at evaluates
      obtain ⟨rule, shown⟩ := evaluates
      exact ⟨report, rfl, rule, shown, (ends _).mpr outcome.symm, circular report outcome rule,
        fun none => acyclic none report outcome rule⟩

end Component
end ReactiveTemplate
