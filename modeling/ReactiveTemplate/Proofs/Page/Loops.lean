import ReactiveTemplate.Proofs.Component.Leftovers
import ReactiveTemplate.Proofs.Page.Resolved

/-!
# Loops that bindings refer to

A binding refers to a loop by its id.  Main statement: in a compiled page every loop that is referred
to stands around the site that refers to it, so its binding is there as well.
-/

namespace ReactiveTemplate
namespace Page

/-! ## Bindings of a tree -/

/-- The loop that a binding refers to, if it refers to one, is one of the given ones or has a binding
of its own. -/
def Binding.Refers (loops : List String) (bindings : List Binding) (binding : Binding) : Prop :=
  ∀ loop, binding.site.scope.bind Scope.loop = some loop →
    loop ∈ loops ∨ ∃ outer ∈ bindings, outer.kind = .loop ∧ outer.id = loop

namespace Binding.Refers

variable {loops : List String} {bindings bindings' : List Binding} {binding : Binding}

theorem of_inside (inside : Scope.Inside loops binding.site.scope) :
    binding.Refers loops bindings := fun loop named => .inl (inside loop named)

theorem mono (refers : binding.Refers loops bindings) (part : bindings ⊆ bindings') :
    binding.Refers loops bindings' := by
  intro loop named
  rcases refers loop named with there | ⟨outer, member, own⟩
  · exact .inl there
  · exact .inr ⟨outer, part member, own⟩

/-- Inside a loop that has a binding, the loop itself may be referred to. -/
theorem of_loop {own : Binding} (refers : binding.Refers (own.id :: loops) bindings)
    (isLoop : own.kind = .loop) (part : bindings ⊆ bindings') (member : own ∈ bindings') :
    binding.Refers loops bindings' := by
  intro loop named
  rcases refers loop named with there | ⟨outer, listed, is_outer⟩
  · rcases List.mem_cons.mp there with rfl | there
    · exact .inr ⟨own, member, isLoop, rfl⟩
    · exact .inl there
  · exact .inr ⟨outer, part listed, is_outer⟩

end Binding.Refers

/-- Only an expression is written as a marker. -/
theorem value_of_formOf {attr : Attribute} {target : List Char} {e : Expression}
    (marker : formOf attr = .marker target e) : attr.value = .dynamic e := by
  unfold formOf at marker
  cases value : attr.value with
  | fixed text =>
      rw [value] at marker
      cases event : eventName? attr.name with
      | none =>
          simp only [event] at marker
          split at marker <;> cases marker
      | some name =>
          simp only [event] at marker
          cases marker
  | dynamic own =>
      rw [value] at marker
      cases event : eventName? attr.name with
      | none =>
          simp only [event] at marker
          cases marker
          rfl
      | some name =>
          simp only [event] at marker
          split at marker
          · cases marker
          · cases marker
            rfl

theorem attributeBinding?_inside {loops : List String} {attr : Attribute} {binding : Binding}
    (enclosed : attr.Enclosed loops) (made : attributeBinding? attr = some binding) :
    Scope.Inside loops binding.site.scope := by
  unfold attributeBinding? at made
  split at made
  · rename_i target e marker
    cases made
    refine enclosed.2 e ?_
    rw [value_of_formOf marker, AttributeValue.expressions]
    exact List.mem_singleton_self e
  · cases made

mutual

theorem nodeBindings_refers :
    ∀ (node : Node) {loops : List String}, node.Enclosed loops →
      ∀ binding ∈ nodeBindings node, binding.Refers loops (nodeBindings node)
  | .doctype .., _, _, _, member | .text .., _, _, _, member | .component .., _, _, _, member => by
      simp [nodeBindings] at member
  | .element tag attributes children site, loops, enclosed, binding, member => by
      rw [Node.Enclosed] at enclosed
      rw [nodeBindings] at member ⊢
      rcases List.mem_append.mp member with header | below
      · obtain ⟨attr, listed, made⟩ := List.mem_filterMap.mp header
        exact .of_inside (attributeBinding?_inside (enclosed.2.1 attr listed) made)
      · by_cases void : Markup.isVoidElement tag = true
        · rw [if_pos void] at below
          cases below
        · rw [if_neg void] at below ⊢
          exact (nodesBindings_refers children enclosed.2.2 binding below).mono
            (List.subset_append_right _ _)
  | .expression e, loops, enclosed, binding, member => by
      rw [Node.Enclosed] at enclosed
      rw [nodeBindings, List.mem_singleton] at member
      exact .of_inside (member ▸ enclosed)
  | .conditional id condition consequent alternate site, loops, enclosed, binding, member => by
      rw [Node.Enclosed] at enclosed
      rw [nodeBindings] at member ⊢
      rcases List.mem_append.mp member with branch | own
      · rcases List.mem_append.mp branch with first | second
        · exact (nodesBindings_refers consequent enclosed.2.1 binding first).mono
            (List.Subset.trans (List.subset_append_left _ _) (List.subset_append_left _ _))
        · exact (nodesBindings_refers alternate enclosed.2.2 binding second).mono
            (List.Subset.trans (List.subset_append_right _ _) (List.subset_append_left _ _))
      · rw [List.mem_singleton] at own
        exact .of_inside (own ▸ enclosed.1)
  | .optional id condition branch site, loops, enclosed, binding, member => by
      rw [Node.Enclosed] at enclosed
      rw [nodeBindings] at member ⊢
      rcases List.mem_append.mp member with below | own
      · exact (nodesBindings_refers branch enclosed.2 binding below).mono
          (List.subset_append_left _ _)
      · rw [List.mem_singleton] at own
        exact .of_inside (own ▸ enclosed.1)
  | .loop id source binder body site, loops, enclosed, binding, member => by
      rw [Node.Enclosed] at enclosed
      rw [nodeBindings] at member ⊢
      rcases List.mem_append.mp member with below | own
      · -- the body refers to this loop or to one further out
        exact (nodesBindings_refers body enclosed.2 binding below).of_loop rfl
          (List.subset_append_left _ _) (List.mem_append_right _ (List.mem_singleton_self _))
      · rw [List.mem_singleton] at own
        exact .of_inside (own ▸ enclosed.1)

/-- A binding of nodes inside some loops refers to one of these or to a loop among the nodes. -/
theorem nodesBindings_refers :
    ∀ (nodes : List Node) {loops : List String}, Node.EnclosedAll loops nodes →
      ∀ binding ∈ nodesBindings nodes, binding.Refers loops (nodesBindings nodes)
  | [], _, _, _, member => by simp [nodesBindings] at member
  | node :: rest, loops, enclosed, binding, member => by
      rw [Node.enclosedAll_cons] at enclosed
      rw [nodesBindings] at member ⊢
      rcases List.mem_append.mp member with first | later
      · exact (nodeBindings_refers node enclosed.1 binding first).mono
          (List.subset_append_left _ _)
      · exact (nodesBindings_refers rest enclosed.2 binding later).mono
          (List.subset_append_right _ _)

end

/-! ## Compiled pages -/

open Component

variable {library : Library} {source file : String} {compiled : Compiled}

/-- Definitions that have been read have each id once and name no loop. -/
theorem closed_of_ofSource
    (read : ∀ entry ∈ library.entries,
      ∃ name path source, Definition.ofSource name path source = .ok entry.2) :
    library.Closed := by
  intro entry member
  obtain ⟨name, path, source, ok⟩ := read entry member
  rw [Definition.ofSource] at ok
  split at ok
  · cases ok
  · rename_i template registry parse_ok
    have same := Except.ok.inj ok
    rw [← same]
    have fresh := Template.parse_pass .empty parse_ok
    exact ⟨Node.idsOfList_eq template.nodes ▸ fresh.keeps.distinct,
      Template.parse_enclosed parse_ok⟩

/-- In a compiled page every loop that a scope names stands around the site of the scope, and every
loop that a binding refers to has a binding. -/
theorem compile_loops_enclose
    (read : ∀ entry ∈ library.entries,
      ∃ name path source, Definition.ofSource name path source = .ok entry.2)
    (ok : compile source file library = .ok compiled) :
    ∃ template parsed nodes registry resolution after,
      Template.parse source file {} = .ok (template, parsed) ∧
      Fragment.lower template.nodes file parsed = .ok (nodes, registry) ∧
      resolve library file nodes registry = .ok (resolution, after) ∧
      compiled.bindings = (emit resolution.nodes).bindings ∧
      Node.EnclosedAll [] resolution.nodes ∧
      ∀ binding ∈ compiled.bindings, ∀ loop, binding.site.scope.bind Scope.loop = some loop →
        ∃ outer ∈ compiled.bindings, outer.kind = .loop ∧ outer.id = loop := by
  obtain ⟨template, parsed, nodes, registry, resolution, after, parse_ok, lower_ok, resolve_ok,
    -, bindings, -⟩ := compile_steps ok
  have fresh := Template.parse_pass .empty parse_ok
  have outside (registry : Registry) (es : List Expression) : registry.Apart [] es :=
    fun id member => by cases member
  have lowered := (Fragment.lower_leads lower_ok).encloses [] [] trivial (List.Subset.refl _)
    fresh.keeps (outside _ _) (Template.parse_enclosed parse_ok)
  obtain ⟨keeps, -⟩ := lowered_page .empty parse_ok lower_ok
  have resolved := (resolve_leads resolve_ok).encloses [] [] (closed_of_ofSource read)
    (List.Subset.refl _) keeps (outside _ _) lowered
  refine ⟨template, parsed, nodes, registry, resolution, after, parse_ok, lower_ok, resolve_ok,
    bindings, resolved, ?_⟩
  intro binding member loop named
  rw [bindings, emit, List.mem_mergeSort] at member
  rcases nodesBindings_refers resolution.nodes resolved binding member loop named with
    there | ⟨outer, listed, own⟩
  · cases there
  · exact ⟨outer, by rwa [bindings, emit, List.mem_mergeSort], own⟩

/-- The id of a binding and the loop it refers to. -/
def Binding.reference (binding : Binding) : String × Option String :=
  (binding.id, binding.site.scope.bind Scope.loop)

/-- A loop of the page around a usage whose content is a loop, placed twice in a loop of the
definition: the second copy refers to its own loop. -/
theorem compile_loops_enclose_twice :
    ∃ definition compiled, ∃ resolution : Resolution,
      Definition.ofSource "Rows" "Rows.zen"
        "<ul>{items.map(item => <li><slot/><slot/></li>)}</ul>" = .ok definition ∧
      compile "{rows.map(row => <Rows>{row.cells.map(cell => <b>{cell}</b>)}</Rows>)}" "page.zen"
        ⟨[("Rows", definition)]⟩ = .ok compiled ∧
      compiled.bindings = (emit resolution.nodes).bindings ∧
      (nodesBindings resolution.nodes).map Binding.reference =
        [("expr_4", some "loop_3"), ("loop_3", some "loop_1"), ("expr_8", some "loop_7"),
          ("loop_7", some "loop_1"), ("loop_6", some "loop_1"), ("loop_1", none)] ∧
      ∀ binding ∈ compiled.bindings, ∀ loop, binding.site.scope.bind Scope.loop = some loop →
        ∃ outer ∈ compiled.bindings, outer.kind = .loop ∧ outer.id = loop := by
  have evaluates : (do
      let definition ← Definition.ofSource "Rows" "Rows.zen"
        "<ul>{items.map(item => <li><slot/><slot/></li>)}</ul>"
      let page ← Template.parse
        "{rows.map(row => <Rows>{row.cells.map(cell => <b>{cell}</b>)}</Rows>)}" "page.zen" {}
      let lowered ← Fragment.lower page.1.nodes "page.zen" page.2
      let resolved ← resolve ⟨[("Rows", definition)]⟩ "page.zen" lowered.1 lowered.2
      let _ ← compile "{rows.map(row => <Rows>{row.cells.map(cell => <b>{cell}</b>)}</Rows>)}"
        "page.zen" ⟨[("Rows", definition)]⟩
      pure resolved.1.nodes).toOption.any
        (fun nodes : List Node => (nodesBindings nodes).map Binding.reference ==
          [("expr_4", some "loop_3"), ("loop_3", some "loop_1"), ("expr_8", some "loop_7"),
            ("loop_7", some "loop_1"), ("loop_6", some "loop_1"), ("loop_1", none)]) = true := by
    decide +kernel
  obtain ⟨result, ok, same⟩ := exists_ok _ evaluates
  simp only [bind_eq_ok] at ok
  obtain ⟨definition, read, ⟨template, parsed⟩, parse_ok, ⟨nodes, registry⟩, lower_ok,
    ⟨resolution, after⟩, resolve_ok, compiled, compile_ok, ok⟩ := ok
  cases ok
  have known : ∀ entry ∈ (⟨[("Rows", definition)]⟩ : Library).entries,
      ∃ name path source, Definition.ofSource name path source = .ok entry.2 := by
    intro entry member
    obtain rfl := List.mem_singleton.mp member
    exact ⟨_, _, _, read⟩
  obtain ⟨template', parsed', nodes', registry', resolution', after', parse_ok', lower_ok',
    resolve_ok', bindings, -, refer⟩ := compile_loops_enclose known compile_ok
  rw [parse_ok, Except.ok.injEq, Prod.mk.injEq] at parse_ok'
  obtain ⟨rfl, rfl⟩ := parse_ok'
  rw [lower_ok, Except.ok.injEq, Prod.mk.injEq] at lower_ok'
  obtain ⟨rfl, rfl⟩ := lower_ok'
  rw [resolve_ok, Except.ok.injEq, Prod.mk.injEq] at resolve_ok'
  obtain ⟨rfl, rfl⟩ := resolve_ok'
  exact ⟨definition, compiled, resolution, read, compile_ok, bindings, by simpa using same, refer⟩

end Page
end ReactiveTemplate
