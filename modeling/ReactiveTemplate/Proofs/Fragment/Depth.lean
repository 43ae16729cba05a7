import ReactiveTemplate.Proofs.Code.Extents
import ReactiveTemplate.Proofs.Fragment.Branches
import ReactiveTemplate.Proofs.Fragment.Provenance

/-!
# The depth of fragments

The expressions in a branch are shorter than the code the branch stands in.  So the depth to which
fragments are made is never used up: any bound larger than the length of the code gives the same
outcome, and lowering satisfies the equation without a bound.
-/

namespace ReactiveTemplate
namespace Fragment

open Node (Each EachAll)

/-- The code of every expression that is shown is shorter than a bound. -/
abbrev Shorter (bound : Nat) (nodes : List Node) : Prop :=
  EachAll (fun _ _ => True) (fun code => code.length < bound) nodes

theorem Shorter.mono {bound bound' : Nat} {nodes : List Node} (shorter : Shorter bound nodes)
    (le : bound ≤ bound') : Shorter bound' nodes :=
  EachAll.mono (fun _ _ => id) (fun _ less => Nat.lt_of_lt_of_le less le) shorter

theorem shorter_append {bound : Nat} {left right : List Node} :
    Shorter bound (left ++ right) ↔ Shorter bound left ∧ Shorter bound right := by
  simp only [Shorter, Node.eachAll_iff_everywhere, Node.everywhere_append]

/-! ## Expressions that are read from markup -/

variable {scope : Option Scope} {registry after : Registry} {location : Location}
  {nodes : List Node}

theorem textNodes_shorter (bound : Nat) (raw : List Char) :
    Shorter bound (textNodes scope location raw) := by
  unfold textNodes
  dsimp only
  generalize (if raw.contains '\n' then Text.trim raw else raw) = value
  split
  · trivial
  · exact ⟨trivial, trivial⟩

theorem codeNodes_shorter {bound : Nat} {raw : List Char} (short : raw.length < bound) :
    Shorter bound (codeNodes scope registry location raw).1 := by
  rw [codeNodes]
  split
  · trivial
  · refine ⟨?_, trivial⟩
    rw [Each, registerCode, String.toList_ofList]
    exact Nat.lt_of_le_of_lt (Text.trim_inside raw).length_le short

/-- Code in braces is shorter than the text it is read from. -/
theorem readChildren_shorter {closed : Bool} {text : List Char}
    (ok : readChildren scope closed registry location text = .ok (nodes, after)) :
    Shorter text.length nodes := by
  induction size : text.length using Nat.strongRecOn
    generalizing closed text registry location nodes after with
  | _ size induction =>
  subst size
  have plain : Shorter text.length (textNodes scope location (plainLead text)) :=
    textNodes_shorter text.length (plainLead text)
  have lead := length_afterLead_le text
  rcases readChildren_steps ok with ⟨-, rfl, -⟩ |
    ⟨rest, length, tail, brace, -, shorter, rest_ok, rfl⟩ |
    ⟨c, rest, stop, header, children, middle, tail, -, -, -, -, smaller, shorter, inside_ok,
      rest_ok, rfl⟩
  · exact plain
  · rw [brace, List.length_cons] at lead
    have raw : (rest.take length).length < text.length :=
      Nat.lt_of_le_of_lt (List.length_take_le' ..) lead
    have behind := (induction _ shorter rest_ok rfl).mono (Nat.le_of_lt shorter)
    exact shorter_append.mpr ⟨shorter_append.mpr ⟨plain, codeNodes_shorter raw⟩, behind⟩
  · have below := (induction _ smaller inside_ok rfl).mono (Nat.le_of_lt smaller)
    have behind := (induction _ shorter rest_ok rfl).mono (Nat.le_of_lt shorter)
    refine shorter_append.mpr ⟨shorter_append.mpr ⟨plain, ?_⟩, behind⟩
    split
    · exact below
    · rw [elementNode]
      split
      · exact ⟨below, trivial⟩
      · exact ⟨⟨trivial, below⟩, trivial⟩

/-! ## Steps that agree on short expressions -/

/-- Two ways to lower expressions do the same with expressions shorter than a bound. -/
def Agree {α : Type} (bound : Nat) (one other : Expression → Registry → α) : Prop :=
  ∀ e registry, e.code.length < bound → one e registry = other e registry

section

variable {bound : Nat} {one other : Expression → Action (List Node)}
  {met met' : Expression → Registry → List (List Char)}

mutual

theorem lowerNode_congr (agree : Agree bound one other) :
    ∀ (node : Node) (registry : Registry),
      Each (fun _ _ => True) (fun code => code.length < bound) node →
      lowerNode one node registry = lowerNode other node registry
  | .expression e, registry, short => by
      rw [lowerNode, lowerNode]
      exact agree e registry (by rwa [Each, String.length_toList] at short)
  | .element _ _ children _, _, short => by
      rw [Each] at short
      rw [lowerNode, lowerNode]
      simp only [lowerNodes_congr agree children _ short.2]
  | .component _ _ children _, _, short | .optional _ _ children _, _, short
  | .loop _ _ _ children _, _, short => by
      rw [Each] at short
      rw [lowerNode, lowerNode]
      simp only [lowerNodes_congr agree children _ short]
  | .conditional _ _ consequent alternate _, _, short => by
      rw [Each] at short
      rw [lowerNode, lowerNode]
      simp only [lowerNodes_congr agree consequent _ short.1,
        lowerNodes_congr agree alternate _ short.2]
  | .text .., _, _ | .doctype .., _, _ => by rw [lowerNode, lowerNode]

theorem lowerNodes_congr (agree : Agree bound one other) :
    ∀ (nodes : List Node) (registry : Registry), Shorter bound nodes →
      lowerNodes one nodes registry = lowerNodes other nodes registry
  | [], _, _ => by rw [lowerNodes, lowerNodes]
  | node :: rest, _, short => by
      rw [Shorter, EachAll] at short
      rw [lowerNodes, lowerNodes]
      simp only [lowerNode_congr agree node _ short.1, lowerNodes_congr agree rest _ short.2]

end

mutual

theorem branchesInNode_congr (agree : Agree bound one other) (same : Agree bound met met') :
    ∀ (node : Node) (registry : Registry),
      Each (fun _ _ => True) (fun code => code.length < bound) node →
      branchesInNode one met node registry = branchesInNode other met' node registry
  | .expression e, registry, short => by
      rw [branchesInNode, branchesInNode]
      exact same e registry (by rwa [Each, String.length_toList] at short)
  | .element _ attributes children _, _, short => by
      rw [Each] at short
      rw [branchesInNode, branchesInNode, branchesInNodes_congr agree same children _ short.2]
  | .component _ attributes children _, _, short => by
      rw [Each] at short
      rw [branchesInNode, branchesInNode, branchesInNodes_congr agree same children _ short]
  | .optional _ _ children _, _, short | .loop _ _ _ children _, _, short => by
      rw [Each] at short
      rw [branchesInNode, branchesInNode, branchesInNodes_congr agree same children _ short]
  | .conditional _ _ consequent alternate _, _, short => by
      rw [Each] at short
      have later : branchesInNodes one met alternate = branchesInNodes other met' alternate :=
        funext fun registry => branchesInNodes_congr agree same alternate registry short.2
      rw [branchesInNode, branchesInNode, branchesInNodes_congr agree same consequent _ short.1,
        lowerNodes_congr agree consequent _ short.1, later]
  | .text .., _, _ | .doctype .., _, _ => by rw [branchesInNode, branchesInNode]

theorem branchesInNodes_congr (agree : Agree bound one other) (same : Agree bound met met') :
    ∀ (nodes : List Node) (registry : Registry), Shorter bound nodes →
      branchesInNodes one met nodes registry = branchesInNodes other met' nodes registry
  | [], _, _ => by rw [branchesInNodes, branchesInNodes]
  | node :: rest, _, short => by
      rw [Shorter, EachAll] at short
      have later : branchesInNodes one met rest = branchesInNodes other met' rest :=
        funext fun registry => branchesInNodes_congr agree same rest registry short.2
      rw [branchesInNodes, branchesInNodes, branchesInNode_congr agree same node _ short.1,
        lowerNode_congr agree node _ short.1, later]

end

/-- What is read as a branch is shorter than the bound, or it is markup and not longer. -/
def Fits (bound : Nat) (code : List Char) : Prop :=
  (Code.unwrapped code).length < bound ∨
    (Code.unwrapped code).length ≤ bound ∧ (Code.unwrapped code).head? = some '<'

theorem Fits.of_length {code : List Char} (short : code.length < bound) : Fits bound code :=
  .inl (Nat.lt_of_le_of_lt (Text.slice_inside _ _ _).length_le short)

theorem readBranch_congr (agree : Agree bound one other) {code : List Char} (fits : Fits bound code)
    (location : Location) (scope : Option Scope) (registry : Registry) :
    readBranch one code location scope registry = readBranch other code location scope registry := by
  have le : (Code.unwrapped code).length ≤ bound := fits.elim Nat.le_of_lt And.left
  rw [readBranch, readBranch]
  dsimp only
  rw [← Code.unwrapped]
  split
  · rfl
  · split
    · cases read : readChildren scope false registry
          (location.advance (code.take (Code.unwrap code).1)) (Code.unwrapped code) with
      | error misstep => rfl
      | ok result => exact lowerNodes_congr agree _ _ ((readChildren_shorter read).mono le)
    · rename_i plain
      have short := fits.resolve_right fun markup => plain markup.2
      exact agree _ _ (by rwa [String.length_ofList])

theorem branchesInBranch_congr (agree : Agree bound one other) (same : Agree bound met met')
    {code : List Char} (fits : Fits bound code) (location : Location) (scope : Option Scope)
    (registry : Registry) :
    branchesInBranch one met code location scope registry =
      branchesInBranch other met' code location scope registry := by
  have le : (Code.unwrapped code).length ≤ bound := fits.elim Nat.le_of_lt And.left
  rw [branchesInBranch, branchesInBranch]
  dsimp only
  rw [← Code.unwrapped]
  congr 1
  split
  · rfl
  · split
    · cases read : readChildren scope false registry
          (location.advance (code.take (Code.unwrap code).1)) (Code.unwrapped code) with
      | error misstep => rfl
      | ok result =>
          exact branchesInNodes_congr agree same _ _ ((readChildren_shorter read).mono le)
    · rename_i plain
      have short := fits.resolve_right fun markup => plain markup.2
      exact same _ _ (by rwa [String.length_ofList])

/-- The segments of a shape fit into the code, as branches of it. -/
theorem fits_of_mem_segments {code : List Char} {segment : Code.Segment}
    (member : segment ∈ (Code.analyze code).segments) : Fits code.length segment.text := by
  cases shape : Code.analyze code with
  | fragment markup =>
      obtain ⟨text, angle⟩ := Code.text_of_fragment shape
      rw [shape, Code.Shape.segments, List.mem_singleton] at member
      have again : Code.unwrapped (Code.unwrapped code) = Code.unwrapped code := by
        rw [Code.unwrapped, Code.unwrap_unwrapped, Text.slice, List.take_length, List.drop_zero]
      rw [member, text, Fits, again]
      exact .inr ⟨(Text.slice_inside _ _ _).length_le, angle⟩
  | _ =>
      refine .of_length ((Code.analyze_laid code).shorter ?_ segment member)
      rw [shape]
      rintro ⟨⟩

theorem lowerShape_congr (agree : Agree bound one other) (e : Expression) {shape : Code.Shape}
    (fits : ∀ segment ∈ shape.segments, Fits bound segment.text) (registry : Registry) :
    lowerShape one e shape registry = lowerShape other e shape registry := by
  cases shape with
  | primitive | unknown | crash => rfl
  | fragment markup =>
      have branch := readBranch_congr agree (fits markup List.mem_cons_self)
      rw [lowerShape, lowerShape, branch]
  | conditional condition consequent alternate =>
      have first := readBranch_congr agree (fits consequent (by simp [Code.Shape.segments]))
      have second := readBranch_congr agree (fits alternate (by simp [Code.Shape.segments]))
      simp only [lowerShape, first, second]
  | optional condition body | loop source binder body =>
      have branch := readBranch_congr agree (fits body (by simp [Code.Shape.segments]))
      simp only [lowerShape, branch]

theorem branchesInShape_congr (agree : Agree bound one other) (same : Agree bound met met')
    (e : Expression) {shape : Code.Shape}
    (fits : ∀ segment ∈ shape.segments, Fits bound segment.text) (registry : Registry) :
    branchesInShape one met e shape registry = branchesInShape other met' e shape registry := by
  cases shape with
  | primitive | unknown | crash => rfl
  | fragment markup =>
      exact branchesInBranch_congr agree same (fits markup List.mem_cons_self) _ _ _
  | conditional condition consequent alternate =>
      have mem : consequent ∈ [condition, consequent, alternate] := by simp
      have mem' : alternate ∈ [condition, consequent, alternate] := by simp
      have first := branchesInBranch_congr agree same (fits consequent mem)
      have later := fun location scope =>
        funext (branchesInBranch_congr agree same (fits alternate mem') location scope)
      simp only [branchesInShape, first, later, readBranch_congr agree (fits consequent mem)]
  | optional condition body | loop source binder body =>
      exact branchesInBranch_congr agree same (fits body (by simp [Code.Shape.segments])) _ _ _

end

/-! ## Bounds that are large enough -/

/-- Any bound larger than the length of the code gives the same outcome, and the same branches are
met. -/
theorem lowerWithin_eq (e : Expression) (registry : Registry) {depth : Nat}
    (enough : e.code.length < depth) :
    lowerWithin depth e registry = lowerExpression e registry ∧
      branchesWithin depth e registry = branchesMet e registry := by
  induction size : e.code.length using Nat.strongRecOn generalizing e registry depth with
  | _ size induction =>
  subst size
  cases depth with
  | zero => exact absurd enough (Nat.not_lt_zero _)
  | succ depth =>
      have settled (bound : Nat) (le : e.code.length ≤ bound) (e' : Expression)
          (registry' : Registry) (short : e'.code.length < e.code.length) :=
        induction _ short e' registry' (Nat.lt_of_lt_of_le short le) rfl
      have le := Nat.le_of_lt_succ enough
      have agree : Agree e.code.length (lowerWithin depth) (lowerWithin e.code.length) :=
        fun e' registry' short => (settled depth le e' registry' short).1.trans
          (settled _ (Nat.le_refl _) e' registry' short).1.symm
      have same : Agree e.code.length (branchesWithin depth) (branchesWithin e.code.length) :=
        fun e' registry' short => (settled depth le e' registry' short).2.trans
          (settled _ (Nat.le_refl _) e' registry' short).2.symm
      have fits (segment) (member : segment ∈ (Code.analyze e.code.toList).segments) :=
        fits_of_mem_segments member
      rw [String.length_toList] at fits
      exact ⟨lowerShape_congr agree e fits registry, branchesInShape_congr agree same e fits registry⟩

/-- Lowering makes a fragment of the shape of the code, in which the branches are lowered in turn. -/
theorem lowerExpression_eq (e : Expression) (registry : Registry) :
    lowerExpression e registry =
      lowerShape lowerExpression e (Code.analyze e.code.toList) registry := by
  have fits (segment) (member : segment ∈ (Code.analyze e.code.toList).segments) :=
    fits_of_mem_segments member
  rw [String.length_toList] at fits
  refine lowerShape_congr (fun e' registry' short => ?_) e fits registry
  exact (lowerWithin_eq e' registry' short).1

end Fragment
end ReactiveTemplate
