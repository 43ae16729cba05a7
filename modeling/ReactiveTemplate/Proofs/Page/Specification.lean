import ReactiveTemplate.Proofs.Page.Check
import ReactiveTemplate.Proofs.Tree.Everywhere

/-!
# What the final check decides

The check goes through a tree once and stops at the first violation; on the way it carries the ids
that it has met and the variables that the loops around a node require.  It accepts exactly the
trees that obey a specification in which neither of the two occurs: every part of it is said of the
whole tree, or of one node at a time.
-/

namespace ReactiveTemplate
namespace Page

/-! ## The specification -/

/-- The attribute does not select a slot for a template element. -/
def PlainName (name : String) : Prop :=
  name ≠ "name" ∧ ¬"#".toList <+: name.toList ∧ ¬"v-slot".toList <+: name.toList

/-- No slot is selected by an attribute of the element, or by the element. -/
def SlotFree (tag : String) (attributes : List Attribute) : Prop :=
  (∀ attr ∈ attributes, attr.name ≠ "slot") ∧
    (tag = "template" → ∀ attr ∈ attributes, PlainName attr.name)

/-- The node may stand in a page: it is no usage of a component, the code of an expression shows no
markup, and no slot is selected by an element. -/
def Admissible : Node → Prop
  | .component .. => False
  | .expression e => (Code.analyze e.code.toList).output = .primitive
  | .element tag attributes _ _ => SlotFree tag attributes
  | _ => True

/-- What a page has to obey. -/
structure Valid (terms : Terms) (nodes : List Node) : Prop where
  /-- Every node may stand in a page. -/
  admissible : Node.Everywhere Admissible nodes
  /-- No id is listed twice. -/
  distinct : (Node.idsOfList nodes).Nodup
  /-- Every id is registered. -/
  registered : ∀ id ∈ Node.idsOfList nodes, terms.registry.contains id
  /-- The variables of every loop are in reach everywhere in what it repeats. -/
  reached : Node.Everywhere Node.Reaches nodes
  /-- The variables that are expected of an id are in its scope. -/
  satisfied : ∀ e ∈ Node.expressionsOfList nodes, terms.Satisfied e

/-! ## Single checks -/

variable {terms : Terms} {required seen seen' : List String} {done : Unit}

theorem checkScope_eq_ok {scope : Option Scope} {location : Location} :
    checkScope scope required location = .ok done ↔ required ⊆ Scope.names scope := by
  rw [checkScope]
  split
  · rename_i missing found
    have absent := List.find?_some found
    have wanted := List.mem_of_find?_eq_some found
    refine iff_of_false (fun same => nomatch same) fun part => ?_
    simp [part wanted] at absent
  · rename_i none
    refine iff_of_true rfl fun name wanted => ?_
    simpa using List.find?_eq_none.mp none name wanted

theorem checkExpectation_eq_ok {e : Expression} {location : Location} :
    checkExpectation terms e.id e.scope location = .ok done ↔ terms.Satisfied e := by
  rw [checkExpectation, Terms.Satisfied]
  cases terms.expectations.lookup e.id with
  | none => simp
  | some expected => simp [checkScope_eq_ok]

theorem unmet_nil {registry : Registry} : Unmet registry seen [] :=
  ⟨List.nodup_nil, by simp⟩

theorem unmet_singleton {registry : Registry} {id : String} :
    Unmet registry seen [id] ↔ registry.contains id = true ∧ id ∉ seen :=
  ⟨fun unmet => unmet.unmet id List.mem_cons_self,
    fun new => ⟨List.nodup_singleton id, by simpa using new⟩⟩

/-- Ids are unmet if the first of them are, and the others are once the first have been met. -/
theorem unmet_append {registry : Registry} {first rest : List String} :
    Unmet registry seen (first ++ rest) ↔
      Unmet registry seen first ∧ Unmet registry (first.reverse ++ seen) rest := by
  constructor
  · intro unmet
    exact ⟨unmet.left, unmet.right (by simp)⟩
  · rintro ⟨left, right⟩
    refine ⟨List.nodup_append'.mpr ⟨left.distinct, right.distinct, fun id early late => ?_⟩,
      fun id member => ?_⟩
    · exact (right.unmet id late).2 (by simp [early])
    · rcases List.mem_append.mp member with early | late
      · exact left.unmet id early
      · obtain ⟨registered, new⟩ := right.unmet id late
        exact ⟨registered, fun old => new (by simp [old])⟩

theorem checkPlain_eq_ok {code : String} {location : Location} :
    checkPlain code location = .ok done ↔ (Code.analyze code.toList).output = .primitive := by
  rw [checkPlain]
  cases (Code.analyze code.toList).output <;> simp

theorem selectsSlot_eq_false {name : String} : selectsSlot name = false ↔ PlainName name := by
  rw [← Bool.not_eq_true]
  simp only [selectsSlot, PlainName, Text.startsWith, Bool.or_eq_true, beq_iff_eq,
    List.isPrefixOf_iff_prefix, not_or, ne_eq, and_assoc]

theorem checkElement_eq_ok {tag : String} {attributes : List Attribute} {location : Location} :
    checkElement tag attributes location = .ok done ↔ SlotFree tag attributes := by
  rw [checkElement, SlotFree, Attribute.find?]
  split
  · rename_i attr found
    have named := List.find?_some found
    have member := List.mem_of_find?_eq_some found
    refine iff_of_false (by simp) fun slotFree => ?_
    exact slotFree.1 attr member (by simpa using named)
  · rename_i none
    have unnamed : ∀ attr ∈ attributes, attr.name ≠ "slot" := by
      simpa using List.find?_eq_none.mp none
    rw [and_iff_right unnamed]
    simp only [← selectsSlot_eq_false]
    split
    · rename_i selected
      refine iff_of_false (by simp) fun plain => ?_
      simp only [Bool.and_eq_true, beq_iff_eq, List.any_eq_true] at selected
      obtain ⟨isTemplate, attr, member, selects⟩ := selected
      rw [plain isTemplate attr member] at selects
      cases selects
    · rename_i plain
      refine iff_of_true rfl fun isTemplate attr member => ?_
      rw [← Bool.not_eq_true]
      intro selects
      exact plain (by simpa [isTemplate] using ⟨attr, member, selects⟩)

/-! ## Steps of the check -/

/-- The step accepts exactly when the ids are unmet and the condition holds, and then adds the ids
to those that have been met. -/
def Decides (terms : Terms) (seen ids : List String) (step : Except Misstep (List String))
    (condition : Prop) : Prop :=
  ∀ seen', step = .ok seen' ↔
    Unmet terms.registry seen ids ∧ condition ∧ ids.reverse ++ seen = seen'

namespace Decides

variable {ids first rest : List String} {step : Except Misstep (List String)}
  {next : List String → Except Misstep (List String)} {condition condition' : Prop}

theorem nothing : Decides terms seen [] (.ok seen) True := fun seen' => by
  simp [unmet_nil]

theorem congr (decides : Decides terms seen ids step condition) (same : condition ↔ condition') :
    Decides terms seen ids step condition' := fun seen' => by
  rw [decides seen', same]

/-- A check that keeps no record comes first. -/
theorem guard {check : Except Misstep Unit} (guarded : ∀ {done}, check = .ok done ↔ condition)
    (after : Decides terms seen ids step condition') :
    Decides terms seen ids (check >>= fun _ => step) (condition ∧ condition') := fun seen' => by
  simp only [bind_eq_ok, guarded, after seen']
  constructor
  · rintro ⟨_, holds, unmet, holds', met⟩
    exact ⟨unmet, ⟨holds, holds'⟩, met⟩
  · rintro ⟨unmet, ⟨holds, holds'⟩, met⟩
    exact ⟨(), holds, unmet, holds', met⟩

/-- One step comes after another. -/
theorem bind (before : Decides terms seen first step condition)
    (after : Decides terms (first.reverse ++ seen) rest (next (first.reverse ++ seen))
      condition') :
    Decides terms seen (first ++ rest) (step >>= next) (condition ∧ condition') := fun seen' => by
  simp only [bind_eq_ok, before _, unmet_append]
  constructor
  · rintro ⟨_, ⟨unmet, holds, rfl⟩, accepted⟩
    obtain ⟨unmet', holds', met⟩ := (after seen').mp accepted
    exact ⟨⟨unmet, unmet'⟩, ⟨holds, holds'⟩, by simp [← met]⟩
  · rintro ⟨⟨unmet, unmet'⟩, ⟨holds, holds'⟩, met⟩
    exact ⟨_, ⟨unmet, holds, rfl⟩, (after seen').mpr ⟨unmet', holds', by simp [← met]⟩⟩

end Decides

theorem checkRegistered_decides (id : String) (location : Location) :
    Decides terms seen [id] (checkRegistered terms seen id location) True := fun seen' => by
  rw [checkRegistered, unmet_singleton]
  cases terms.registry.contains id with
  | false => simp
  | true => by_cases met : id ∈ seen <;> simp [met]

theorem checkHead_decides (e : Expression) :
    Decides terms seen [e.id] (checkHead terms required seen e.id ⟨e.location, e.scope⟩)
      (required ⊆ Scope.names e.scope ∧ terms.Satisfied e) := by
  rw [checkHead]
  refine Decides.congr (.guard checkScope_eq_ok <|
    (checkRegistered_decides e.id e.location).bind <|
      .guard checkExpectation_eq_ok .nothing) ?_
  simp

theorem checkAttributes_decides (attributes : List Attribute) :
    Decides terms seen (Attribute.ids attributes) (checkAttributes terms required seen attributes)
      ((∀ e ∈ Attribute.expressions attributes, required ⊆ Scope.names e.scope) ∧
        ∀ e ∈ Attribute.expressions attributes, terms.Satisfied e) := by
  induction attributes generalizing seen with
  | nil => exact Decides.nothing.congr (by simp)
  | cons attr rest induction =>
      rw [checkAttributes]
      cases value : attr.value with
      | fixed text =>
          have ids : Attribute.ids (attr :: rest) = Attribute.ids rest := by
            simp [Attribute.ids, Attribute.id?, value]
          rw [ids]
          exact induction.congr (by simp [value, AttributeValue.expressions])
      | dynamic e =>
          have ids : Attribute.ids (attr :: rest) = [e.id] ++ Attribute.ids rest := by
            simp [Attribute.ids, Attribute.id?, value]
          rw [ids]
          refine Decides.congr ((checkRegistered_decides e.id attr.site.location).bind <|
            .guard checkScope_eq_ok <| .guard checkExpectation_eq_ok induction) ?_
          simp only [Attribute.expressions_cons, value, AttributeValue.expressions,
            List.singleton_append, List.forall_mem_cons]
          tauto

/-! ## The whole check -/

open Node in
mutual

private theorem checkNode_decides (terms : Terms) :
    ∀ (required seen : List String) (node : Node),
      Decides terms seen node.ids (checkNode terms required seen node)
        (node.Covers required ∧ (∀ e ∈ node.expressions, terms.Satisfied e) ∧
          Everywhere Admissible [node])
  | required, seen, .component .. => fun seen' => by
      simp [checkNode, everywhere_singleton, Admissible]
  | required, seen, .doctype .. => by
      rw [checkNode]
      exact Decides.nothing.congr
        (by simp [Covers, expressions, everywhere_singleton, childLists, Admissible])
  | required, seen, .text _ site => by
      rw [checkNode]
      exact (Decides.guard checkScope_eq_ok .nothing).congr
        (by simp [Covers, expressions, everywhere_singleton, childLists, Admissible])
  | required, seen, .expression e => by
      rw [checkNode]
      refine ((checkHead_decides e).bind (.guard checkPlain_eq_ok .nothing)).congr ?_
      simp [Covers, expressions, everywhere_singleton, childLists, Admissible, and_assoc]
  | required, seen, .element tag attributes children site => by
      rw [checkNode]
      refine Decides.congr (.guard checkScope_eq_ok <| .guard checkElement_eq_ok <|
        (checkAttributes_decides attributes).bind (checkNodes_decides terms _ _ children)) ?_
      simp only [Covers, expressions, everywhere_singleton, childLists, Admissible,
        List.forall_mem_append, List.forall_mem_singleton]
      tauto
  | required, seen, .conditional id condition consequent alternate site => by
      rw [checkNode]
      refine Decides.congr ((checkHead_decides ⟨id, condition, site.location, site.scope⟩).bind <|
        (checkNodes_decides terms _ _ consequent).bind (checkNodes_decides terms _ _ alternate)) ?_
      simp only [Covers, expressions, everywhere_singleton, childLists, Admissible,
        List.forall_mem_append, List.forall_mem_cons]
      tauto
  | required, seen, .optional id condition branch site => by
      rw [checkNode]
      refine Decides.congr ((checkHead_decides ⟨id, condition, site.location, site.scope⟩).bind
        (checkNodes_decides terms _ _ branch)) ?_
      simp only [Covers, expressions, everywhere_singleton, childLists, Admissible,
        List.forall_mem_cons]
      tauto
  | required, seen, .loop id source binder body site => by
      rw [checkNode]
      refine Decides.congr ((checkHead_decides ⟨id, source, site.location, site.scope⟩).bind
        (checkNodes_decides terms _ _ body)) ?_
      simp only [Covers, expressions, everywhere_singleton, childLists, Admissible,
        List.forall_mem_cons]
      tauto

private theorem checkNodes_decides (terms : Terms) :
    ∀ (required seen : List String) (nodes : List Node),
      Decides terms seen (idsOfList nodes) (checkNodes terms required seen nodes)
        (CoversAll required nodes ∧ (∀ e ∈ expressionsOfList nodes, terms.Satisfied e) ∧
          Everywhere Admissible nodes)
  | required, seen, [] => by
      rw [checkNodes]
      exact Decides.nothing.congr (by simp [expressionsOfList])
  | required, seen, node :: rest => by
      rw [checkNodes]
      refine Decides.congr
        ((checkNode_decides terms _ _ node).bind (checkNodes_decides terms _ _ rest)) ?_
      rw [coversAll_cons, expressionsOfList, List.forall_mem_append,
        everywhere_head_tail _ node rest]
      tauto

end

/-- The check accepts exactly the valid pages. -/
theorem check_eq_ok_iff (nodes : List Node) (registry : Registry)
    (expectations : List (String × List String)) (file : String) :
    check nodes registry expectations file = .ok () ↔ Valid ⟨registry, expectations⟩ nodes := by
  have decided := checkNodes_decides ⟨registry, expectations⟩ [] [] nodes
  have accepted : check nodes registry expectations file = .ok () ↔
      ∃ seen, checkNodes ⟨registry, expectations⟩ [] [] nodes = .ok seen := by
    rw [check]
    cases checkNodes ⟨registry, expectations⟩ [] [] nodes <;> simp [reportIn]
  have covered : Node.CoversAll [] nodes ↔ Node.Everywhere Node.Reaches nodes := by
    rw [Node.coversAll_iff_everywhere]
    exact and_iff_right fun _ _ _ _ => List.nil_subset _
  simp only [accepted, decided _, covered, exists_and_left, exists_eq', and_true]
  constructor
  · rintro ⟨unmet, reached, satisfied, admissible⟩
    exact ⟨admissible, unmet.distinct, fun id member => (unmet.unmet id member).1, reached,
      satisfied⟩
  · rintro ⟨admissible, distinct, registered, reached, satisfied⟩
    exact ⟨⟨distinct, fun id member => ⟨registered id member, List.not_mem_nil⟩⟩, reached,
      satisfied, admissible⟩

end Page
end ReactiveTemplate
