import ReactiveTemplate.Page.Check
import ReactiveTemplate.Proofs.Component.Resolution
import ReactiveTemplate.Proofs.Template.Parse

/-!
# What the final check never finds

Resolution leaves the tree and the registry in agreement and never narrows a scope.  So the check of
a resolved tree may still report markup that survived or an attribute that is not allowed, but it
reports neither a binding that is not registered once nor a variable that is out of reach.
-/

namespace ReactiveTemplate
namespace Page

open Registry

variable {terms : Terms} {required seen : List String}

/-! ## Bindings -/

/-- The ids are distinct, registered, and have not been met before. -/
structure Unmet (registry : Registry) (seen ids : List String) : Prop where
  /-- No id occurs twice. -/
  distinct : ids.Nodup
  /-- Every id is registered and new. -/
  unmet : ∀ id ∈ ids, registry.contains id ∧ id ∉ seen

namespace Unmet

variable {registry : Registry} {seen' first rest : List String}

theorem left (unmet : Unmet registry seen (first ++ rest)) : Unmet registry seen first :=
  ⟨unmet.distinct.of_append_left, fun id member =>
    unmet.unmet id (List.mem_append_left rest member)⟩

/-- Once the first ids have been met, the others have still not been. -/
theorem right (unmet : Unmet registry seen (first ++ rest)) (met : seen' ⊆ first ++ seen) :
    Unmet registry seen' rest := by
  refine ⟨unmet.distinct.of_append_right, fun id member => ?_⟩
  obtain ⟨registered, new⟩ := unmet.unmet id (List.mem_append_right first member)
  refine ⟨registered, fun there => ?_⟩
  rcases List.mem_append.mp (met there) with earlier | old
  · exact List.disjoint_of_nodup_append unmet.distinct earlier member
  · exact new old

end Unmet

private theorem subset_trans_append {seen seen' seen'' first rest : List String}
    (met : seen' ⊆ first ++ seen) (met' : seen'' ⊆ rest ++ seen') :
    seen'' ⊆ first ++ rest ++ seen := by
  intro id member
  rcases List.mem_append.mp (met' member) with later | there
  · exact List.mem_append_left seen (List.mem_append_right first later)
  · rcases List.mem_append.mp (met there) with earlier | old
    · exact List.mem_append_left seen (List.mem_append_left rest earlier)
    · exact List.mem_append_right (first ++ rest) old

theorem checkScope_other (scope : Option Scope) (required : List String) (location : Location) :
    Spares .registeredOnce (checkScope scope required location) fun _ => True := by
  rw [checkScope]
  split
  · exact fun same => by cases same
  · trivial

theorem checkExpectation_other (id : String) (scope : Option Scope) (location : Location) :
    Spares .registeredOnce (checkExpectation terms id scope location) fun _ => True := by
  rw [checkExpectation]
  split
  · exact checkScope_other scope _ location
  · trivial

theorem checkRegistered_unmet {id : String} (location : Location)
    (unmet : Unmet terms.registry seen [id]) :
    Spares .registeredOnce (checkRegistered terms seen id location)
      fun seen' => seen' ⊆ [id] ++ seen := by
  obtain ⟨registered, new⟩ := unmet.unmet id List.mem_cons_self
  have absent : seen.contains id = false := by simpa using new
  rw [checkRegistered, registered, absent]
  exact List.Subset.refl _

theorem checkHead_unmet {id : String} (site : Site) (unmet : Unmet terms.registry seen [id]) :
    Spares .registeredOnce (checkHead terms required seen id site)
      fun seen' => seen' ⊆ [id] ++ seen := by
  rw [checkHead]
  refine (checkScope_other _ _ _).bind fun _ _ => ?_
  refine (checkRegistered_unmet _ unmet).bind fun seen' met => ?_
  exact (checkExpectation_other _ _ _).bind fun _ _ => met

theorem checkAttributes_unmet {attributes : List Attribute}
    (unmet : Unmet terms.registry seen (Attribute.ids attributes)) :
    Spares .registeredOnce (checkAttributes terms required seen attributes)
      fun seen' => seen' ⊆ Attribute.ids attributes ++ seen := by
  induction attributes generalizing seen with
  | nil => exact List.Subset.refl _
  | cons attr rest induction =>
      rw [checkAttributes]
      cases value : attr.value with
      | fixed text =>
          have ids : Attribute.ids (attr :: rest) = Attribute.ids rest := by
            simp [Attribute.ids, Attribute.id?, value]
          rw [ids] at unmet ⊢
          exact induction unmet
      | dynamic e =>
          have ids : Attribute.ids (attr :: rest) = [e.id] ++ Attribute.ids rest := by
            simp [Attribute.ids, Attribute.id?, value]
          rw [ids] at unmet ⊢
          refine (checkRegistered_unmet _ unmet.left).bind fun seen' met => ?_
          refine (checkScope_other _ _ _).bind fun _ _ => ?_
          refine (checkExpectation_other _ _ _).bind fun _ _ => ?_
          exact (induction (unmet.right met)).mono fun _ met' => subset_trans_append met met'

theorem checkElement_other (tag : String) (attributes : List Attribute) (location : Location)
    {rule : Rule} (slot : rule ≠ .noSlotAttribute) (template : rule ≠ .noTemplateSlot) :
    Spares rule (checkElement tag attributes location) fun _ => True := by
  rw [checkElement]
  split
  · exact slot.symm
  · split
    · exact template.symm
    · trivial

theorem checkPlain_other (code : String) (location : Location) {rule : Rule}
    (markup : rule ≠ .enumerableMarkup) (crash : rule ≠ .crash) :
    Spares rule (checkPlain code location) fun _ => True := by
  rw [checkPlain]
  split
  · trivial
  · exact crash.symm
  · exact markup.symm

mutual

theorem checkNode_unmet (terms : Terms) :
    ∀ {node : Node} {required seen : List String}, Unmet terms.registry seen node.ids →
      Spares .registeredOnce (checkNode terms required seen node)
        fun seen' => seen' ⊆ node.ids ++ seen
  | .component .., required, seen, unmet => by
      rw [checkNode]
      exact fun same => by cases same
  | .doctype .., required, seen, unmet => by
      rw [checkNode]
      exact List.Subset.refl _
  | .text _ site, required, seen, unmet => by
      rw [checkNode]
      exact (checkScope_other _ _ _).bind fun _ _ => List.Subset.refl _
  | .element tag attributes children site, required, seen, unmet => by
      rw [Node.ids] at unmet ⊢
      rw [checkNode]
      refine (checkScope_other _ _ _).bind fun _ _ => ?_
      refine (checkElement_other tag attributes _ (by decide) (by decide)).bind fun _ _ => ?_
      refine (checkAttributes_unmet unmet.left).bind fun seen' met => ?_
      exact (checkNodes_unmet terms (unmet.right met)).mono fun _ met' =>
        subset_trans_append met met'
  | .expression e, required, seen, unmet => by
      rw [Node.ids] at unmet ⊢
      rw [checkNode]
      refine (checkHead_unmet _ unmet).bind fun seen' met => ?_
      exact (checkPlain_other _ _ (by decide) (by decide)).bind fun _ _ => met
  | .conditional id condition consequent alternate site, required, seen, unmet => by
      rw [Node.ids, ← List.singleton_append] at unmet ⊢
      rw [checkNode]
      refine (checkHead_unmet site unmet.left).bind fun seen' met => ?_
      have branches := unmet.right met
      refine (checkNodes_unmet terms branches.left).bind fun seen'' met' => ?_
      exact (checkNodes_unmet terms (branches.right met')).mono fun _ met'' =>
        subset_trans_append met (subset_trans_append met' met'')
  | .optional id condition branch site, required, seen, unmet => by
      rw [Node.ids, ← List.singleton_append] at unmet ⊢
      rw [checkNode]
      refine (checkHead_unmet site unmet.left).bind fun seen' met => ?_
      exact (checkNodes_unmet terms (unmet.right met)).mono fun _ met' =>
        subset_trans_append met met'
  | .loop id source binder body site, required, seen, unmet => by
      rw [Node.ids, ← List.singleton_append] at unmet ⊢
      rw [checkNode]
      refine (checkHead_unmet site unmet.left).bind fun seen' met => ?_
      exact (checkNodes_unmet terms (unmet.right met)).mono fun _ met' =>
        subset_trans_append met met'

theorem checkNodes_unmet (terms : Terms) :
    ∀ {nodes : List Node} {required seen : List String},
      Unmet terms.registry seen (Node.idsOfList nodes) →
      Spares .registeredOnce (checkNodes terms required seen nodes)
        fun seen' => seen' ⊆ Node.idsOfList nodes ++ seen
  | [], required, seen, unmet => by
      rw [checkNodes]
      exact List.Subset.refl _
  | node :: rest, required, seen, unmet => by
      rw [Node.idsOfList] at unmet ⊢
      rw [checkNodes]
      refine (checkNode_unmet terms unmet.left).bind fun seen' met => ?_
      exact (checkNodes_unmet terms (unmet.right met)).mono fun _ met' =>
        subset_trans_append met met'

end

/-! ## Scopes -/

/-- What is expected of the id of an expression is in its scope. -/
def Terms.Satisfied (terms : Terms) (e : Expression) : Prop :=
  ∀ expected, terms.expectations.lookup e.id = some expected → expected ⊆ Scope.names e.scope

theorem checkScope_covered {scope : Option Scope} (location : Location)
    (covered : required ⊆ Scope.names scope) :
    Spares .scopeKept (checkScope scope required location) fun _ => True := by
  rw [checkScope]
  split
  · rename_i missing found
    have out := List.find?_some found
    have inside := covered (List.mem_of_find?_eq_some found)
    simp [inside] at out
  · trivial

theorem checkExpectation_satisfied {e : Expression} (location : Location)
    (satisfied : terms.Satisfied e) :
    Spares .scopeKept (checkExpectation terms e.id e.scope location) fun _ => True := by
  rw [checkExpectation]
  split
  · rename_i expected found
    exact checkScope_covered location (satisfied expected found)
  · trivial

theorem checkRegistered_other (terms : Terms) (seen : List String) (id : String)
    (location : Location) :
    Spares .scopeKept (checkRegistered terms seen id location) fun _ => True := by
  rw [checkRegistered]
  split
  · exact fun same => by cases same
  · split
    · exact fun same => by cases same
    · trivial

theorem checkHead_covered {e : Expression} (covered : required ⊆ Scope.names e.scope)
    (satisfied : terms.Satisfied e) :
    Spares .scopeKept (checkHead terms required seen e.id ⟨e.location, e.scope⟩)
      fun _ => True := by
  rw [checkHead]
  refine (checkScope_covered _ covered).bind fun _ _ => ?_
  refine (checkRegistered_other _ _ _ _).bind fun _ _ => ?_
  exact (checkExpectation_satisfied _ satisfied).bind fun _ _ => trivial

theorem checkAttributes_covered {attributes : List Attribute}
    (covered : ∀ e ∈ Attribute.expressions attributes, required ⊆ Scope.names e.scope)
    (satisfied : ∀ e ∈ Attribute.expressions attributes, terms.Satisfied e) :
    Spares .scopeKept (checkAttributes terms required seen attributes) fun _ => True := by
  induction attributes generalizing seen with
  | nil => trivial
  | cons attr rest induction =>
      rw [checkAttributes]
      rw [Attribute.expressions_cons, List.forall_mem_append] at covered satisfied
      cases value : attr.value with
      | fixed text => exact induction covered.2 satisfied.2
      | dynamic e =>
          have own : e ∈ attr.value.expressions := by simp [value, AttributeValue.expressions]
          refine (checkRegistered_other _ _ _ _).bind fun _ _ => ?_
          refine (checkScope_covered _ (covered.1 e own)).bind fun _ _ => ?_
          refine (checkExpectation_satisfied _ (satisfied.1 e own)).bind fun _ _ => ?_
          exact induction covered.2 satisfied.2

mutual

theorem checkNode_covered (terms : Terms) :
    ∀ {node : Node} {required seen : List String}, node.Covers required →
      (∀ e ∈ node.expressions, terms.Satisfied e) →
      Spares .scopeKept (checkNode terms required seen node) fun _ => True
  | .component .., required, seen, covers, satisfied => by
      rw [checkNode]
      exact fun same => by cases same
  | .doctype .., required, seen, covers, satisfied => by
      rw [checkNode]
      trivial
  | .text _ site, required, seen, covers, satisfied => by
      rw [Node.Covers] at covers
      rw [checkNode]
      exact (checkScope_covered _ covers).bind fun _ _ => trivial
  | .element tag attributes children site, required, seen, covers, satisfied => by
      rw [Node.Covers] at covers
      rw [Node.expressions, List.forall_mem_append] at satisfied
      rw [checkNode]
      refine (checkScope_covered _ covers.1).bind fun _ _ => ?_
      refine (checkElement_other tag attributes _ (by decide) (by decide)).bind fun _ _ => ?_
      refine (checkAttributes_covered covers.2.1 satisfied.1).bind fun _ _ => ?_
      exact checkNodes_covered terms covers.2.2 satisfied.2
  | .expression e, required, seen, covers, satisfied => by
      rw [Node.Covers] at covers
      rw [Node.expressions, List.forall_mem_singleton] at satisfied
      rw [checkNode]
      refine (checkHead_covered covers satisfied).bind fun _ _ => ?_
      exact (checkPlain_other _ _ (by decide) (by decide)).bind fun _ _ => trivial
  | .conditional id condition consequent alternate site, required, seen, covers, satisfied => by
      rw [Node.Covers] at covers
      rw [Node.expressions, List.forall_mem_cons, List.forall_mem_append] at satisfied
      rw [checkNode]
      refine (checkHead_covered covers.1 satisfied.1).bind fun _ _ => ?_
      refine (checkNodes_covered terms covers.2.1 satisfied.2.1).bind fun _ _ => ?_
      exact checkNodes_covered terms covers.2.2 satisfied.2.2
  | .optional id condition branch site, required, seen, covers, satisfied => by
      rw [Node.Covers] at covers
      rw [Node.expressions, List.forall_mem_cons] at satisfied
      rw [checkNode]
      refine (checkHead_covered covers.1 satisfied.1).bind fun _ _ => ?_
      exact checkNodes_covered terms covers.2 satisfied.2
  | .loop id source binder body site, required, seen, covers, satisfied => by
      rw [Node.Covers] at covers
      rw [Node.expressions, List.forall_mem_cons] at satisfied
      rw [checkNode]
      refine (checkHead_covered covers.1 satisfied.1).bind fun _ _ => ?_
      exact checkNodes_covered terms covers.2 satisfied.2

theorem checkNodes_covered (terms : Terms) :
    ∀ {nodes : List Node} {required seen : List String}, Node.CoversAll required nodes →
      (∀ e ∈ Node.expressionsOfList nodes, terms.Satisfied e) →
      Spares .scopeKept (checkNodes terms required seen nodes) fun _ => True
  | [], required, seen, covers, satisfied => by
      rw [checkNodes]
      trivial
  | node :: rest, required, seen, covers, satisfied => by
      rw [Node.coversAll_cons] at covers
      rw [Node.expressionsOfList, List.forall_mem_append] at satisfied
      rw [checkNodes]
      refine (checkNode_covered terms covers.1 satisfied.1).bind fun _ _ => ?_
      exact checkNodes_covered terms covers.2 satisfied.2

end

/-- A report of the check comes from the check of the nodes. -/
theorem rule_ne_of_check {nodes : List Node} {registry : Registry} {file : String}
    {expectations : List (String × List String)} {rule : Rule} {property : List String → Prop}
    {report : Diagnostic}
    (spares : Spares rule (checkNodes ⟨registry, expectations⟩ [] [] nodes) property)
    (failed : check nodes registry expectations file = .error report) : report.rule ≠ rule := by
  rw [check] at failed
  split at failed
  · cases failed
  · rename_i found
    cases failed
    exact spares.rule_ne found

end Page
end ReactiveTemplate
