import ReactiveTemplate.Fragment.Lowering
import ReactiveTemplate.Proofs.Fragment.Markup
import ReactiveTemplate.Proofs.Text.Offset

/-!
# How lowering fails

Code that is refused breaks one of two rules: it is not well-formed, or its markup cannot be
enumerated.  So no other rule is ever reported while markup is read and expressions are turned into
fragments, whether or not the lexer crashes.
-/

namespace ReactiveTemplate

namespace Fragment

variable {rule : Rule}

section Reading

variable (wellFormed : Rule.wellFormed ≠ rule)

include wellFormed

/-! ## Reading -/

theorem readValue_spares (scope : Option Scope) (registry : Registry) (name : String)
    (nameLocation location : Location) (text : List Char) :
    Spares rule (readValue scope registry name nameLocation location text) fun _ => True := by
  unfold readValue
  split
  · split
    · exact wellFormed
    · trivial
  · trivial
  · split
    · trivial
    · split
      · trivial
      · trivial

theorem readAssignment_spares (scope : Option Scope) (registry : Registry) (name : String)
    (nameLocation location : Location) (text : List Char) :
    Spares rule (readAssignment scope registry name nameLocation location text)
      fun _ => True := by
  unfold readAssignment
  dsimp only
  split
  · split
    · trivial
    · rename_i failed
      exact (readValue_spares wellFormed ..).error_rule_ne failed
  · trivial

theorem readHeader_spares (scope : Option Scope) (registry : Registry) (location : Location)
    (skip : Nat) (text : List Char) :
    Spares rule (readHeader scope registry location skip text) fun _ => True := by
  induction text generalizing skip registry location with
  | nil =>
      rw [readHeader]
      trivial
  | cons c rest induction =>
      cases skip with
      | succ skip =>
          rw [readHeader]
          split
          · trivial
          · rename_i failed
            exact (induction registry (location.next c) skip).error_rule_ne failed
      | zero =>
          rw [readHeader]
          split
          · trivial
          split
          · trivial
          split
          · dsimp only
            split
            · rename_i failed
              exact (readAssignment_spares wellFormed ..).error_rule_ne failed
            · split
              · trivial
              · rename_i failed
                exact (induction ..).error_rule_ne failed
          · dsimp only
            split
            · trivial
            · rename_i failed
              exact (induction ..).error_rule_ne failed

theorem readOpening_spares (scope : Option Scope) (registry : Registry) (location : Location)
    (inside : List Char) :
    Spares rule (readOpening scope registry location inside) fun _ => True := by
  rw [readOpening]
  split
  · trivial
  · exact readHeader_spares wellFormed ..

theorem readChildren_spares (scope : Option Scope) (closed : Bool) (registry : Registry)
    (location : Location) (text : List Char) :
    Spares rule (readChildren scope closed registry location text) fun _ => True := by
  -- what is read inside and behind the first element is shorter than the text
  induction size : text.length using Nat.strongRecOn
    generalizing closed text registry location with
  | _ size induction =>
  subst size
  have lead := length_afterLead_le text
  cases after : afterLead text with
  | nil =>
      rw [readChildren_ended _ _ _ _ after]
      trivial
  | cons c rest =>
      rw [after, List.length_cons] at lead
      by_cases brace : c = '{'
      · subst brace
        rw [readChildren_code _ _ _ _ after]
        split
        · exact wellFormed
        · refine (induction _ ?_ _ _ _ _ rfl).bind fun _ _ => trivial
          rw [List.length_drop]
          omega
      · rw [readChildren_element _ _ _ _ brace after]
        split
        · exact wellFormed
        · refine (readOpening_spares wellFormed ..).bind fun header _ => ?_
          refine (induction _ ?_ _ _ _ _ rfl).bind fun children _ => ?_
          · simp only [Text.length_slice, List.length_take]
            omega
          refine (induction _ ?_ _ _ _ _ rfl).bind fun _ _ => trivial
          rw [List.length_drop]
          omega

end Reading

/-! ## Lowering -/

theorem checkAttributes_spares (enumerable : Rule.enumerableMarkup ≠ rule)
    (crash : Rule.crash ≠ rule) (attributes : List Attribute) :
    Spares rule (checkAttributes attributes) fun _ => True := by
  induction attributes with
  | nil => trivial
  | cons attr rest induction =>
      rw [checkAttributes, checkAttribute]
      cases attr.value with
      | fixed text => exact induction
      | dynamic e =>
          dsimp only
          cases Code.findsMarkup? e.code.toList with
          | none => exact crash
          | some found =>
              cases found with
              | true => exact enumerable
              | false => exact induction

variable {lowerOne : Expression → Action (List Node)}

mutual

theorem lowerNode_spares (enumerable : Rule.enumerableMarkup ≠ rule) (crash : Rule.crash ≠ rule)
    (one : ∀ e registry, Spares rule (lowerOne e registry) fun _ => True) :
    ∀ (node : Node) (registry : Registry),
      Spares rule (lowerNode lowerOne node registry) fun _ => True
  | .expression e, registry => by
      rw [lowerNode]
      exact one e registry
  | .element _ attributes children _, registry | .component _ attributes children _, registry => by
      rw [lowerNode]
      refine (checkAttributes_spares enumerable crash attributes).bind fun _ _ => ?_
      exact (lowerNodes_spares enumerable crash one children registry).bind fun _ _ => trivial
  | .conditional _ _ consequent alternate _, registry => by
      rw [lowerNode]
      refine (lowerNodes_spares enumerable crash one consequent registry).bind fun first _ => ?_
      exact (lowerNodes_spares enumerable crash one alternate first.2).bind fun _ _ => trivial
  | .optional _ _ branch _, registry | .loop _ _ _ branch _, registry => by
      rw [lowerNode]
      exact (lowerNodes_spares enumerable crash one branch registry).bind fun _ _ => trivial
  | .text .., registry | .doctype .., registry => by
      rw [lowerNode]
      trivial

theorem lowerNodes_spares (enumerable : Rule.enumerableMarkup ≠ rule) (crash : Rule.crash ≠ rule)
    (one : ∀ e registry, Spares rule (lowerOne e registry) fun _ => True) :
    ∀ (nodes : List Node) (registry : Registry),
      Spares rule (lowerNodes lowerOne nodes registry) fun _ => True
  | [], registry => by
      rw [lowerNodes]
      trivial
  | node :: rest, registry => by
      rw [lowerNodes]
      refine (lowerNode_spares enumerable crash one node registry).bind fun first _ => ?_
      exact (lowerNodes_spares enumerable crash one rest first.2).bind fun _ _ => trivial

end

section Lowering

variable (wellFormed : Rule.wellFormed ≠ rule) (enumerable : Rule.enumerableMarkup ≠ rule)
  (crash : Rule.crash ≠ rule)

include wellFormed enumerable crash

theorem readBranch_spares (one : ∀ e registry, Spares rule (lowerOne e registry) fun _ => True)
    (code : List Char) (location : Location) (scope : Option Scope) (registry : Registry) :
    Spares rule (readBranch lowerOne code location scope registry) fun _ => True := by
  unfold readBranch
  dsimp only
  split
  · trivial
  split
  · refine (readChildren_spares wellFormed ..).bind fun read _ => ?_
    exact lowerNodes_spares enumerable crash one read.1 read.2
  · exact one _ _

theorem lowerShape_spares (one : ∀ e registry, Spares rule (lowerOne e registry) fun _ => True)
    (e : Expression) (shape : Code.Shape) (registry : Registry) :
    Spares rule (lowerShape lowerOne e shape registry) fun _ => True := by
  have branch := readBranch_spares wellFormed enumerable crash one
  cases shape with
  | primitive => trivial
  | unknown => exact enumerable
  | crash => exact crash
  | fragment markup => exact (branch ..).bind fun _ _ => trivial
  | conditional condition consequent alternate =>
      exact (branch ..).bind fun _ _ => (branch ..).bind fun _ _ => trivial
  | optional condition inner => exact (branch ..).bind fun _ _ => trivial
  | loop source binder body => exact (branch ..).bind fun _ _ => trivial

theorem lowerWithin_spares (depth : Nat) (e : Expression) (registry : Registry) :
    Spares rule (lowerWithin depth e registry) fun _ => True := by
  induction depth generalizing e registry with
  | zero => exact enumerable
  | succ depth induction => exact lowerShape_spares wellFormed enumerable crash induction e _ registry

/-- Lowering reports no other rule than that code is well-formed and that markup can be
enumerated. -/
theorem lower_rule_ne {nodes : List Node} {file : String} {registry : Registry}
    {report : Diagnostic} (failed : lower nodes file registry = .error report) :
    report.rule ≠ rule :=
  (lowerNodes_spares enumerable crash
    (fun e => lowerWithin_spares wellFormed enumerable crash (e.code.length + 1) e) nodes
      registry).rule_ne failed

end Lowering

end Fragment
end ReactiveTemplate
