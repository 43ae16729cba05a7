import ReactiveTemplate.Proofs.Fragment.Invariants

/-!
# Lowering again

A node is lowered if lowering has nothing to do at it: no expression and no attribute shows markup.
Whatever lowering makes is lowered at every depth, and what is lowered at every depth stays as it
is.  So nothing happens when a template is lowered again.
-/

namespace ReactiveTemplate
namespace Fragment

open Node (Everywhere)

variable {registry after : Registry} {nodes result : List Node}

/-! ## Everything becomes lowered -/

/-- Lowering has nothing to do at the node by itself. -/
def Lowered : Node → Prop
  | .expression e => (Code.analyze e.code.toList).output = .primitive
  | .element _ attributes _ _ | .component _ attributes _ _ => Plain attributes
  | _ => True

/-- Whatever is read, the nodes that are left are lowered. -/
def lowering : Invariant where
  fits _ _ := True
  read _ := True
  left := Lowered
  related _ _ := True

theorem lowering_kept : lowering.Kept where
  isLocal node := by cases node <;> exact Iff.rfl
  refl _ := trivial
  trans _ _ := trivial
  register _ _ _ _ := trivial
  remove _ _ := trivial
  part _ _ _ := trivial
  markup _ _ := ⟨fun _ _ => trivial, trivial⟩
  code _ := trivial
  stays {node} _ stays := by
    cases node with
    | expression e => exact stays.elim
    | element | component => exact stays
    | _ => exact trivial
  plain _ primitive := congrArg Code.Shape.output primitive
  fragment {node} made := by
    cases node with
    | conditional | optional | loop => exact trivial
    | _ => cases made

/-! ## Nothing happens to lowered nodes -/

theorem lowerExpression_lowered {e : Expression} (lowered : Lowered (.expression e)) :
    lowerExpression e registry = .ok ([.expression e], registry) := by
  have primitive : Code.analyze e.code.toList = .primitive := by
    rw [Lowered] at lowered
    cases shape : Code.analyze e.code.toList with
    | primitive => rfl
    | _ =>
        rw [shape] at lowered
        cases lowered
  rw [lowerExpression, lowerWithin, primitive]
  rfl

mutual

private theorem lowerNode_lowered :
    ∀ {node : Node} {registry : Registry}, Everywhere Lowered [node] →
      lowerNode lowerExpression node registry = .ok ([node], registry)
  | .expression e, registry, lowered => by
      rw [Node.everywhere_singleton] at lowered
      rw [lowerNode]
      exact lowerExpression_lowered lowered.1
  | .element tag attributes children site, registry, lowered
  | .component tag attributes children site, registry, lowered => by
      simp only [Node.everywhere_singleton, Node.childLists, List.forall_mem_singleton] at lowered
      have accepted : checkAttributes attributes = .ok () := checkAttributes_eq_ok.mpr lowered.1
      rw [lowerNode, accepted, lowerNodes_lowered lowered.2]
      rfl
  | .conditional id condition consequent alternate site, registry, lowered => by
      simp only [Node.everywhere_singleton, Node.childLists, List.forall_mem_cons] at lowered
      obtain ⟨-, left, right, -⟩ := lowered
      rw [lowerNode, lowerNodes_lowered left]
      dsimp only [bind, Except.bind]
      rw [lowerNodes_lowered right]
      rfl
  | .optional id condition branch site, registry, lowered => by
      simp only [Node.everywhere_singleton, Node.childLists, List.forall_mem_singleton] at lowered
      rw [lowerNode, lowerNodes_lowered lowered.2]
      rfl
  | .loop id source binder body site, registry, lowered => by
      simp only [Node.everywhere_singleton, Node.childLists, List.forall_mem_singleton] at lowered
      rw [lowerNode, lowerNodes_lowered lowered.2]
      rfl
  | .text .., registry, lowered | .doctype .., registry, lowered => by
      rw [lowerNode]
      rfl

/-- Lowering changes nothing in nodes that are lowered everywhere. -/
theorem lowerNodes_lowered :
    ∀ {nodes : List Node} {registry : Registry}, Everywhere Lowered nodes →
      lowerNodes lowerExpression nodes registry = .ok (nodes, registry)
  | [], registry, lowered => by
      rw [lowerNodes]
      rfl
  | node :: rest, registry, lowered => by
      rw [Node.everywhere_head_tail] at lowered
      rw [lowerNodes, lowerNode_lowered lowered.1]
      dsimp only [bind, Except.bind]
      rw [lowerNodes_lowered lowered.2]
      rfl

end

/-- A template that has been lowered is lowered everywhere, and lowering it again changes neither
the template nor the registry. -/
theorem lower_idempotent {file : String} (ok : lower nodes file registry = .ok (result, after)) :
    Everywhere Lowered result ∧ ∀ file', lower result file' after = .ok (result, after) := by
  have lowered := (Invariant.lower_holds lowering_kept (fun _ _ => trivial) ok).left
  exact ⟨lowered, fun _ => reportIn_eq_ok.mpr (lowerNodes_lowered lowered)⟩

/-- A guard in one branch of a choice in a loop, and a dynamic attribute in the other. -/
def rowsWithGuard : Expression :=
  ⟨"expr_0",
    "rows.map(row => row.ok ? <b title={row.kind}>{row.name}</b> : (<i>{row.on && <u/>}</i>))", {},
    none⟩

/-- Nothing of the loop is left to lower. -/
theorem lower_idempotent_rows :
    ∃ result after,
      lower [.expression rowsWithGuard] "page.zen" ⟨[rowsWithGuard], 1⟩ = .ok (result, after) ∧
      Node.idsOfList result = ["loop_1", "cond_3", "expr_4", "expr_5", "opt_7"] ∧
      Everywhere Lowered result ∧ ∀ file', lower result file' after = .ok (result, after) := by
  have evaluates : (lower [.expression rowsWithGuard] "page.zen" ⟨[rowsWithGuard], 1⟩).toOption.any
      (fun lowered =>
        Node.idsOfList lowered.1 == ["loop_1", "cond_3", "expr_4", "expr_5", "opt_7"]) = true := by
    decide +kernel
  obtain ⟨⟨result, after⟩, ok, ids⟩ := exists_ok _ evaluates
  exact ⟨result, after, ok, by simpa using ids, lower_idempotent ok⟩

end Fragment
end ReactiveTemplate
