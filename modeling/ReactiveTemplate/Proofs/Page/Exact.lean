import ReactiveTemplate.Proofs.Fragment.Balance
import ReactiveTemplate.Proofs.Page.Resolved

/-!
# Exact registries

A registry is exact for a tree if it agrees with the tree and has no entry besides.  Main statement:
the registry is exact for a template that has been read, and stays exact while expressions turn into
fragments.
-/

namespace ReactiveTemplate

open Registry

/-- The registry agrees with the tree, and every entry has an id of the tree. -/
structure Registry.Exact (registry : Registry) (nodes : List Node) : Prop
    extends registry.Agrees nodes where
  /-- No id is left over. -/
  used : ∀ id ∈ registry.ids, id ∈ Node.idsOfList nodes

instance (registry : Registry) (nodes : List Node) : Decidable (registry.Exact nodes) :=
  decidable_of_iff (registry.Agrees nodes ∧ ∀ id ∈ registry.ids, id ∈ Node.idsOfList nodes)
    ⟨fun ⟨agrees, used⟩ => ⟨agrees, used⟩, fun ⟨agrees, used⟩ => ⟨agrees, used⟩⟩

theorem Registry.mem_ids_of_contains {registry : Registry} {id : String}
    (contained : registry.contains id = true) : id ∈ registry.ids := by
  obtain ⟨entry, listed, same⟩ := List.any_eq_true.mp contained
  exact List.mem_map.mpr ⟨entry, listed, by simpa using same⟩

/-- An exact registry lists the ids of the tree and no other. -/
theorem Registry.Exact.lists {registry : Registry} {nodes : List Node}
    (exact : registry.Exact nodes) (reachable : registry.Reachable) :
    registry.Lists (Node.idsOfList nodes ++ []) := by
  refine ⟨reachable, ?_⟩
  rw [List.append_nil, List.perm_ext_iff_of_nodup reachable.distinct exact.distinct]
  exact fun id => ⟨exact.used id, fun member => mem_ids_of_contains (exact.registered id member)⟩

theorem Registry.Keeps.exact {registry : Registry} {nodes : List Node}
    (keeps : registry.Keeps (Node.expressionsOfList nodes))
    (lists : registry.Lists (Node.idsOfList nodes ++ [])) : registry.Exact nodes := by
  refine ⟨keeps.agrees, fun id member => ?_⟩
  rw [List.append_nil] at lists
  exact lists.same.mem_iff.mp member

namespace Page

/-- The registry is an exact account of the tree: a template that has been read lists the ids in
order of registration, and lowering replaces ids in the tree and in the registry alike. -/
theorem registry_stays_exact :
    (∀ source file template after, Template.parse source file {} = .ok (template, after) →
      Node.idsOfList template.nodes = after.ids ∧ after.Reachable ∧ after.Exact template.nodes) ∧
    ∀ nodes registry file result after, registry.Reachable → registry.Exact nodes →
      Fragment.lower nodes file registry = .ok (result, after) →
        after.Reachable ∧ after.Exact result := by
  constructor
  · intro source file template after ok
    have keeps := (Template.parse_pass .empty ok).keeps
    have order : after.ids = Node.idsOfList template.nodes := Template.parse_enters ok
    refine ⟨order.symm, keeps.reachable, keeps.agrees, fun id member => order ▸ member⟩
  · intro nodes registry file result after reachable exact ok
    have keeps := ((Fragment.lower_leads ok).pass (exact.keeps reachable)).keeps
    have lists := Fragment.lower_balance ok [] (exact.lists reachable)
    exact ⟨keeps.reachable, keeps.exact lists⟩

/-- A choice inside the body of a loop: the ids of the two expressions as written are gone, and the
order of registration is no longer that of the tree. -/
theorem registry_stays_exact_rows :
    ∃ template parsed nodes registry,
      Template.parse "<p title={a}>{rows.map(row => <li>{row ? <b {...x}>{row.name}</b> : null}</li>)}</p>"
        "page.zen" {} = .ok (template, parsed) ∧
      Fragment.lower template.nodes "page.zen" parsed = .ok (nodes, registry) ∧
      Node.idsOfList template.nodes = ["expr_0", "expr_1"] ∧ parsed.ids = ["expr_0", "expr_1"] ∧
      Node.idsOfList nodes = ["expr_0", "loop_2", "cond_4", "expr_5"] ∧
      registry.Exact nodes := by
  have evaluates : (do
      let page ← Template.parse
        "<p title={a}>{rows.map(row => <li>{row ? <b {...x}>{row.name}</b> : null}</li>)}</p>"
        "page.zen" {}
      let lowered ← Fragment.lower page.1.nodes "page.zen" page.2
      pure (page.1.nodes, lowered.1)).toOption.any
        (fun value : List Node × List Node =>
          Node.idsOfList value.1 == ["expr_0", "expr_1"] &&
          Node.idsOfList value.2 == ["expr_0", "loop_2", "cond_4", "expr_5"]) = true := by
    decide +kernel
  obtain ⟨value, ok, same⟩ := exists_ok _ evaluates
  simp only [bind_eq_ok] at ok
  obtain ⟨⟨template, parsed⟩, parse_ok, ⟨nodes, registry⟩, lower_ok, result⟩ := ok
  cases result
  simp only [Bool.and_eq_true, beq_iff_eq] at same
  obtain ⟨order, reachable, exact⟩ := registry_stays_exact.1 _ _ _ _ parse_ok
  exact ⟨template, parsed, nodes, registry, parse_ok, lower_ok, same.1, order ▸ same.1, same.2,
    (registry_stays_exact.2 _ _ _ _ _ reachable exact lower_ok).2⟩

end Page
end ReactiveTemplate
