import Mathlib
import ReactiveTemplate.Diagnostic
import ReactiveTemplate.Fragment.Lowering
import ReactiveTemplate.Proofs.Code.Unwrapping

/-!
# Branches that cannot be enumerated

A run meets the branches of the fragments it makes one after the other, and ends at the first one
that it refuses.  A branch that mixes markup with code is refused, unless it begins with markup:
such a branch is read as markup to its end, and the code in it becomes text.
-/

namespace ReactiveTemplate
namespace Fragment

/-! ## The branches that a run meets -/

/-- What is met after a step that may fail. -/
def following {α β : Type} (outcome : Except Misstep (α × Registry))
    (later : α → Registry → List β) : List β :=
  match outcome with
  | .ok (value, registry) => later value registry
  | .error _ => []

mutual

/-- The branches that are met below a node, where `met` lists those of an expression. -/
def branchesInNode (lowerExpression : Expression → Action (List Node))
    (met : Expression → Registry → List (List Char)) : Node → Registry → List (List Char)
  | .expression e, registry => met e registry
  | .element _ attributes children _, registry
  | .component _ attributes children _, registry =>
    match checkAttributes attributes with
    | .ok () => branchesInNodes lowerExpression met children registry
    | .error _ => []
  | .conditional _ _ consequent alternate _, registry =>
    branchesInNodes lowerExpression met consequent registry ++
      following (lowerNodes lowerExpression consequent registry) fun _ =>
        branchesInNodes lowerExpression met alternate
  | .optional _ _ children _, registry | .loop _ _ _ children _, registry =>
    branchesInNodes lowerExpression met children registry
  | .text .., _ | .doctype .., _ => []

/-- The branches that are met below the nodes of a list. -/
def branchesInNodes (lowerExpression : Expression → Action (List Node))
    (met : Expression → Registry → List (List Char)) : List Node → Registry → List (List Char)
  | [], _ => []
  | node :: rest, registry =>
    branchesInNode lowerExpression met node registry ++
      following (lowerNode lowerExpression node registry) fun _ =>
        branchesInNodes lowerExpression met rest

end

/-- A branch, and the branches that are met in it. -/
def branchesInBranch (lowerExpression : Expression → Action (List Node))
    (met : Expression → Registry → List (List Char)) (code : List Char) (location : Location)
    (scope : Option Scope) (registry : Registry) : List (List Char) :=
  let (start, stop) := Code.unwrap code
  let inner := Text.slice code start stop
  let location := location.advance (code.take start)
  code ::
    if isEmptyBranch inner then []
    else if inner.head? = some '<' then
      following (readChildren scope false registry location inner)
        (branchesInNodes lowerExpression met)
    else
      let text := String.ofList inner
      let (id, registry) := registry.register "expr" text location scope
      met ⟨id, text, location, scope⟩ registry

/-- The branches that are met in an expression of the given shape. -/
def branchesInShape (lowerExpression : Expression → Action (List Node))
    (met : Expression → Registry → List (List Char)) (e : Expression) :
    Code.Shape → Registry → List (List Char)
  | .primitive, _ | .unknown, _ | .crash, _ => []
  | .fragment markup, registry =>
    branchesInBranch lowerExpression met markup.text (segmentLocation e markup) e.scope registry
  | .conditional condition consequent alternate, registry =>
    let (_, registry) := registry.register "cond" (segmentText condition)
      (segmentLocation e condition) e.scope
    let location := segmentLocation e consequent
    branchesInBranch lowerExpression met consequent.text location e.scope registry ++
      following (readBranch lowerExpression consequent.text location e.scope registry) fun _ =>
        branchesInBranch lowerExpression met alternate.text (segmentLocation e alternate) e.scope
  | .optional condition branch, registry =>
    let (_, registry) := registry.register "opt" (segmentText condition)
      (segmentLocation e condition) e.scope
    branchesInBranch lowerExpression met branch.text (segmentLocation e branch) e.scope registry
  | .loop source binder body, registry =>
    let (id, registry) := registry.register "loop" (segmentText source) (segmentLocation e source)
      e.scope
    let inside := Scope.insideLoop e.scope id binder.bound
    branchesInBranch lowerExpression met body.text (segmentLocation e body) (some inside) registry

/-- The branches that are met in an expression, at most so many levels deep. -/
def branchesWithin : Nat → Expression → Registry → List (List Char)
  | 0, _, _ => []
  | depth + 1, e, registry =>
    branchesInShape (lowerWithin depth) (branchesWithin depth) e (Code.analyze e.code.toList)
      registry

/-- The branches that are met when an expression is turned into a fragment, at any depth, in the
order in which the run comes to them. -/
def branchesMet (e : Expression) : Registry → List (List Char) :=
  branchesWithin (e.code.length + 1) e

/-! ## Branches that are refused -/

/-- The code mixes markup with code, and does not begin with markup. -/
structure Mixed (code : List Char) : Prop where
  /-- The code cannot be enumerated. -/
  unknown : Code.analyze code = .unknown
  /-- It does not begin with an angle bracket. -/
  plain : (Code.unwrapped code).head? ≠ some '<'

/-- If a branch that was met is mixed, the run has failed, and it has failed with that branch. -/
def Refuses {α : Type} (outcome : Except Misstep α) (met : List (List Char)) : Prop :=
  ∀ code ∈ met, Mixed code →
    ∃ location, outcome = .error (.mixedMarkup (String.ofList (Code.unwrapped code)), location)

variable {α β : Type} {met : List (List Char)}

theorem Refuses.nil (outcome : Except Misstep α) : Refuses outcome [] :=
  fun _ member => (nomatch member)

theorem Refuses.cons {outcome : Except Misstep α} {code : List Char}
    (refuses : Mixed code → Refuses outcome [code]) (rest : Refuses outcome met) :
    Refuses outcome (code :: met) := by
  intro each member mixed
  rcases List.mem_cons.mp member with rfl | later
  · exact refuses mixed each (List.mem_singleton_self each) mixed
  · exact rest each later mixed

/-- What comes later does not mend a failure. -/
theorem Refuses.bind {outcome : Except Misstep α} (refuses : Refuses outcome met)
    (next : α → Except Misstep β) : Refuses (outcome >>= next) met := by
  intro code member mixed
  obtain ⟨location, failed⟩ := refuses code member mixed
  exact ⟨location, by rw [failed]; rfl⟩

/-- Two steps after each other refuse what both meet. -/
theorem Refuses.following {outcome : Except Misstep (α × Registry)} (refuses : Refuses outcome met)
    {next : α × Registry → Except Misstep β} {later : α → Registry → List (List Char)}
    (refuses_later : ∀ value registry, Refuses (next (value, registry)) (later value registry)) :
    Refuses (outcome >>= next) (met ++ following outcome later) := by
  intro code member mixed
  rcases List.mem_append.mp member with first | second
  · exact refuses.bind next code first mixed
  · cases outcome with
    | error misstep => cases second
    | ok result => exact refuses_later result.1 result.2 code second mixed

/-- Branches that show nothing are no markup. -/
theorem analyze_of_isEmptyBranch {code : List Char} (empty : isEmptyBranch code = true) :
    Code.analyze code = .primitive := by
  rw [isEmptyBranch, List.contains_iff_mem] at empty
  have each : ∀ text ∈ ["", "null", "undefined", "false", "''", "\"\"", "\x60\x60"],
      Code.analyze (String.toList text) = .primitive := by
    decide +kernel
  have own := each _ empty
  rwa [String.toList_ofList] at own

section

variable {lowerExpression : Expression → Action (List Node)}
  {met : Expression → Registry → List (List Char)}

mutual

theorem lowerNode_refuses
    (refuses : ∀ e registry, Refuses (lowerExpression e registry) (met e registry)) :
    ∀ (node : Node) (registry : Registry),
      Refuses (lowerNode lowerExpression node registry)
        (branchesInNode lowerExpression met node registry)
  | .expression e, registry => by
      rw [lowerNode, branchesInNode]
      exact refuses e registry
  | .element _ attributes children _, registry | .component _ attributes children _, registry => by
      rw [lowerNode, branchesInNode]
      cases checkAttributes attributes with
      | error misstep => exact .nil _
      | ok => exact (lowerNodes_refuses refuses children registry).bind _
  | .conditional _ _ consequent alternate _, registry => by
      rw [lowerNode, branchesInNode]
      exact (lowerNodes_refuses refuses consequent registry).following fun _ registry =>
        (lowerNodes_refuses refuses alternate registry).bind _
  | .optional _ _ children _, registry | .loop _ _ _ children _, registry => by
      rw [lowerNode, branchesInNode]
      exact (lowerNodes_refuses refuses children registry).bind _
  | .text .., registry | .doctype .., registry => by
      rw [branchesInNode]
      exact .nil _

theorem lowerNodes_refuses
    (refuses : ∀ e registry, Refuses (lowerExpression e registry) (met e registry)) :
    ∀ (nodes : List Node) (registry : Registry),
      Refuses (lowerNodes lowerExpression nodes registry)
        (branchesInNodes lowerExpression met nodes registry)
  | [], registry => by
      rw [branchesInNodes]
      exact .nil _
  | node :: rest, registry => by
      rw [lowerNodes, branchesInNodes]
      exact (lowerNode_refuses refuses node registry).following fun _ registry =>
        (lowerNodes_refuses refuses rest registry).bind _

end

/-- Reading a branch refuses the branch itself and what is met in it. -/
theorem readBranch_refuses
    (refuses : ∀ e registry, Refuses (lowerExpression e registry) (met e registry))
    (blocks : ∀ e registry, Code.analyze e.code.toList = .unknown →
      lowerExpression e registry = .error (.mixedMarkup e.code, e.location))
    (code : List Char) (location : Location) (scope : Option Scope) (registry : Registry) :
    Refuses (readBranch lowerExpression code location scope registry)
      (branchesInBranch lowerExpression met code location scope registry) := by
  rw [readBranch, branchesInBranch]
  dsimp only
  rw [← Code.unwrapped]
  by_cases empty : isEmptyBranch (Code.unwrapped code) = true
  · rw [if_pos empty, if_pos empty]
    refine .cons (fun mixed => ?_) (.nil _)
    have unknown := (Code.analyze_unwrapped_eq_unknown code).mpr mixed.unknown
    rw [analyze_of_isEmptyBranch empty] at unknown
    cases unknown
  · rw [if_neg empty, if_neg empty]
    by_cases markup : (Code.unwrapped code).head? = some '<'
    · rw [if_pos markup, if_pos markup]
      refine .cons (fun mixed => absurd markup mixed.plain) ?_
      have read := Refuses.nil
        (readChildren scope false registry (location.advance (code.take (Code.unwrap code).1))
          (Code.unwrapped code))
      exact read.following fun nodes registry => lowerNodes_refuses refuses nodes registry
    · rw [if_neg markup, if_neg markup]
      refine .cons (fun mixed => ?_) (refuses _ _)
      -- the branch becomes an expression of its own, which is refused
      intro each member _
      obtain rfl := List.mem_singleton.mp member
      refine ⟨_, blocks _ _ ?_⟩
      rw [String.toList_ofList]
      exact (Code.analyze_unwrapped_eq_unknown each).mpr mixed.unknown

/-- Making a fragment refuses what its branches refuse. -/
theorem lowerShape_refuses
    (refuses : ∀ e registry, Refuses (lowerExpression e registry) (met e registry))
    (blocks : ∀ e registry, Code.analyze e.code.toList = .unknown →
      lowerExpression e registry = .error (.mixedMarkup e.code, e.location))
    (e : Expression) (shape : Code.Shape) (registry : Registry) :
    Refuses (lowerShape lowerExpression e shape registry)
      (branchesInShape lowerExpression met e shape registry) := by
  have branch := readBranch_refuses refuses blocks
  cases shape with
  | primitive | unknown | crash => exact .nil _
  | fragment markup => exact (branch _ _ _ registry).bind _
  | optional condition body | loop source binder body => exact (branch _ _ _ _).bind _
  | conditional condition consequent alternate =>
      exact (branch _ _ _ _).following fun _ registry => (branch _ _ _ registry).bind _

end

/-- Code that cannot be enumerated is refused. -/
theorem lowerWithin_unknown (depth : Nat) {e : Expression}
    (unknown : Code.analyze e.code.toList = .unknown) (registry : Registry) :
    lowerWithin depth e registry = .error (.mixedMarkup e.code, e.location) := by
  cases depth with
  | zero => rfl
  | succ depth =>
      rw [lowerWithin, unknown]
      rfl

theorem lowerWithin_refuses (depth : Nat) (e : Expression) (registry : Registry) :
    Refuses (lowerWithin depth e registry) (branchesWithin depth e registry) := by
  induction depth generalizing e registry with
  | zero => exact .nil _
  | succ depth induction =>
      exact lowerShape_refuses induction
        (fun _ registry unknown => lowerWithin_unknown depth unknown registry) e _ registry

/-- A mixed branch at any depth makes an expression fail, and the failure says so.  Where the
expression becomes a fragment, a branch that cannot be enumerated begins with markup. -/
theorem lowerExpression_refuses (e : Expression) (registry : Registry) :
    (∀ code ∈ branchesMet e registry, Code.analyze code = .unknown →
      (Code.unwrapped code).head? ≠ some '<' →
        ∃ fault location, lowerExpression e registry = .error (fault, location) ∧
          fault = .mixedMarkup (String.ofList (Code.unwrapped code)) ∧
          fault.rule.code = "INV008") ∧
    (Code.analyze e.code.toList = .unknown →
      lowerExpression e registry = .error (.mixedMarkup e.code, e.location)) ∧
    ∀ nodes after, lowerExpression e registry = .ok (nodes, after) →
      ∀ code ∈ branchesMet e registry, Code.analyze code = .unknown →
        (Code.unwrapped code).head? = some '<' := by
  have refuses : Refuses (lowerExpression e registry) (branchesMet e registry) :=
    lowerWithin_refuses (e.code.length + 1) e registry
  refine ⟨fun code member unknown plain => ?_,
    fun unknown => lowerWithin_unknown _ unknown registry,
    fun nodes after ok code member unknown => ?_⟩
  · obtain ⟨location, failed⟩ := refuses code member ⟨unknown, plain⟩
    exact ⟨_, location, failed, rfl, rfl⟩
  · by_contra plain
    obtain ⟨location, failed⟩ := refuses code member ⟨unknown, plain⟩
    rw [ok] at failed
    cases failed

/-- A choice with a guard whose branch mixes markup with code. -/
def mixedChoice : Expression := ⟨"expr_0", "c ? d && (a || <b>x</b>) : null", {}, none⟩

/-- A choice whose branch does so, too, but begins with markup. -/
def leadingChoice : Expression := ⟨"expr_1", "c ? <b/> || x : null", {}, none⟩

/-- The branch of the guard is refused, two levels below the choice.  In the other choice the
operator is kept as text. -/
theorem lowerExpression_refuses_choice :
    let inner := "(a || <b>x</b>)".toList
    let leading := "<b/> || x".toList
    inner ∈ branchesMet mixedChoice {} ∧ Code.analyze inner = .unknown ∧
    (Code.unwrapped inner).head? ≠ some '<' ∧
    (∃ location, lowerExpression mixedChoice {} =
      .error (.mixedMarkup "a || <b>x</b>", location)) ∧
    leading ∈ branchesMet leadingChoice {} ∧ Code.analyze leading = .unknown ∧
    ∃ after, lowerExpression leadingChoice {} =
      .ok ([.conditional "cond_0" "c"
        [.element "b" [] [] ⟨⟨1, 5⟩, none⟩, .text " || x" ⟨⟨1, 9⟩, none⟩] [] ⟨{}, none⟩], after) ∧
      (Code.unwrapped leading).head? = some '<' := by
  intro inner leading
  have met : inner ∈ branchesMet mixedChoice {} := by decide +kernel
  have unknown : Code.analyze inner = .unknown := by decide +kernel
  have plain : (Code.unwrapped inner).head? ≠ some '<' := by decide +kernel
  have text : String.ofList (Code.unwrapped inner) = "a || <b>x</b>" := by decide +kernel
  have met' : leading ∈ branchesMet leadingChoice {} := by decide +kernel
  have unknown' : Code.analyze leading = .unknown := by decide +kernel
  have shape : Code.analyze leadingChoice.code.toList =
      .conditional ⟨"c".toList, 0⟩ ⟨"<b/> || x".toList, 4⟩ ⟨"null".toList, 16⟩ := by
    decide +kernel
  have nodes : (lowerExpression leadingChoice {}).map Prod.fst = .ok [.conditional "cond_0" "c"
      [.element "b" [] [] ⟨⟨1, 5⟩, none⟩, .text " || x" ⟨⟨1, 9⟩, none⟩] [] ⟨{}, none⟩] := by
    rw [lowerExpression, lowerWithin, shape]
    cbv
  refine ⟨met, unknown, plain, ?_, met', unknown', ?_⟩
  · obtain ⟨fault, location, failed, rfl, -⟩ :=
      (lowerExpression_refuses mixedChoice {}).1 inner met unknown plain
    exact ⟨location, text ▸ failed⟩
  · cases ok : lowerExpression leadingChoice {} with
    | error misstep =>
        rw [ok] at nodes
        cases nodes
    | ok result =>
        obtain ⟨made, after⟩ := result
        rw [ok] at nodes
        cases nodes
        exact ⟨after, rfl,
          (lowerExpression_refuses leadingChoice {}).2.2 _ _ ok leading met' unknown'⟩

end Fragment
end ReactiveTemplate
