import ReactiveTemplate.Proofs.Fragment.Invariants
import ReactiveTemplate.Proofs.Fragment.Markup

/-!
# Where lowered nodes come from

Turning expressions into fragments invents no element and no code: every element of the result is an
element of the template or is read from a tag in the code of an expression, and the code of every
expression is part of the code of an expression of the template.
-/

namespace ReactiveTemplate

/-! ## Parts of a text -/

namespace Text

theorem slice_inside (text : List Char) (start stop : Nat) : slice text start stop <:+: text :=
  (slice_isPrefix text start stop).isInfix.trans (List.drop_suffix start text).isInfix

theorem trim_inside (text : List Char) : trim text <:+: text :=
  (trim_isPrefix text).isInfix.trans (List.drop_suffix _ text).isInfix

end Text

/-! ## Every element and every code -/

namespace Node

section

variable (holds : String → List Attribute → Prop) (shown : List Char → Prop)

mutual

/-- Every element in a node has a property, and the code of every expression shown in it has
another. -/
def Each : Node → Prop
  | .element tag attributes children _ => holds tag attributes ∧ EachAll children
  | .component _ _ children _ => EachAll children
  | .expression e => shown e.code.toList
  | .conditional _ _ consequent alternate _ => EachAll consequent ∧ EachAll alternate
  | .optional _ _ branch _ => EachAll branch
  | .loop _ _ _ body _ => EachAll body
  | .text .. | .doctype .. => True

/-- Every element in a list of nodes has a property, and the code of every expression another. -/
def EachAll : List Node → Prop
  | [] => True
  | node :: rest => Each node ∧ EachAll rest

end

end

variable {holds holds' : String → List Attribute → Prop} {shown shown' : List Char → Prop}

/-- What is said of a node by itself. -/
def Own (holds : String → List Attribute → Prop) (shown : List Char → Prop) : Node → Prop
  | .element tag attributes _ _ => holds tag attributes
  | .expression e => shown e.code.toList
  | _ => True

theorem own_local : Local (Own holds shown) := by
  intro node
  cases node <;> exact Iff.rfl

mutual

private theorem each_iff : ∀ {node : Node},
    Each holds shown node ↔ Everywhere (Own holds shown) [node]
  | .element .. | .component .. | .conditional .. | .optional .. | .loop .. => by
      simp [Each, everywhere_singleton, childLists, Own, eachAll_iff_everywhere]
  | .expression _ | .text .. | .doctype .. => by
      simp [Each, everywhere_singleton, childLists, Own]

theorem eachAll_iff_everywhere : ∀ {nodes : List Node},
    EachAll holds shown nodes ↔ Everywhere (Own holds shown) nodes
  | [] => by simp [EachAll]
  | node :: rest => by
      rw [EachAll, everywhere_head_tail, each_iff, eachAll_iff_everywhere]

end

/-- The code of every expression is that of one shown, or of an attribute. -/
theorem eachAll_of_expressions {nodes : List Node}
    (code : ∀ e ∈ expressionsOfList nodes, shown e.code.toList) :
    EachAll (fun _ _ => True) shown nodes := by
  rw [eachAll_iff_everywhere]
  intro node member
  cases node with
  | expression e => exact code e (expressions_subset_of_mem member (by simp [expressions]))
  | _ => exact trivial

theorem EachAll.mono {nodes : List Node}
    (more : ∀ tag attributes, holds tag attributes → holds' tag attributes)
    (wider : ∀ code, shown code → shown' code) (each : EachAll holds shown nodes) :
    EachAll holds' shown' nodes := by
  rw [eachAll_iff_everywhere] at each ⊢
  refine each.mono fun node own => ?_
  cases node with
  | element tag attributes children site => exact more tag attributes own
  | expression e => exact wider e.code.toList own
  | _ => exact trivial

theorem EachAll.and {nodes : List Node} (each : EachAll holds shown nodes)
    (each' : EachAll holds' shown' nodes) :
    EachAll (fun tag attributes => holds tag attributes ∧ holds' tag attributes)
      (fun code => shown code ∧ shown' code) nodes := by
  rw [eachAll_iff_everywhere] at each each' ⊢
  refine (everywhere_and.mpr ⟨each, each'⟩).mono fun node own => ?_
  cases node with
  | element | expression => exact own
  | _ => exact trivial

end Node

namespace Fragment

open Node (EachAll Everywhere)

/-- The attributes are read from a tag of the given name that the code contains. -/
def ReadFrom (code name : List Char) (attributes : List Attribute) : Prop :=
  ∃ scope registry location rest stop header, '<' :: rest <:+: code ∧
    Code.markupEndFrom {} ('<' :: rest) = some stop ∧ name ≠ [] ∧
    tagName (rest.take (stop - 1)) = name ∧
    readHeader scope registry location 0 ((rest.take (stop - 1)).drop name.length) = .ok header ∧
    attributes = header.attributes

/-- What is said of a node by itself holds of whatever is read from code that may be shown. -/
structure Grounds (own : Node → Prop) (shown : List Char → Prop) : Prop where
  /-- What is below a node does not matter. -/
  isLocal : Node.Local own
  /-- Parts of code that may be shown may be shown. -/
  part : ∀ {code part}, shown code → part <:+: code → shown part
  /-- Text that is written in code that may be shown is fine. -/
  text : ∀ {code}, shown code → ∀ site, own (.text (String.ofList (Markup.decodeText code)) site)
  /-- Expressions are fine if their code may be shown. -/
  expression : ∀ {e}, own (.expression e) ↔ shown e.code.toList
  /-- Elements and usages read from code that may be shown are fine. -/
  read : ∀ {code name attributes}, shown code → ReadFrom code name attributes →
    ∀ children site, own (elementNode (String.ofList name) attributes children site)
  /-- Fragments are fine. -/
  fragment : ∀ {node : Node}, node.head?.isSome → own node

/-- What is read from parts of code is read from the code, and code that is read stays within it. -/
structure Traces (holds : String → List Attribute → Prop) (shown : List Char → Prop) : Prop where
  /-- Parts of code that may be shown may be shown. -/
  part : ∀ {code part}, shown code → part <:+: code → shown part
  /-- Elements read from code that may be shown are fine. -/
  read : ∀ {code name attributes}, shown code → ReadFrom code name attributes →
    holds (String.ofList name) attributes

theorem Traces.grounds {holds : String → List Attribute → Prop} {shown : List Char → Prop}
    (traces : Traces holds shown) : Grounds (Node.Own holds shown) shown where
  isLocal := Node.own_local
  part := traces.part
  text _ _ := trivial
  expression := Iff.rfl
  read fine from_code children site := by
    rw [elementNode]
    split
    · exact trivial
    · exact traces.read fine from_code
  fragment {node} made := by
    cases node with
    | conditional | optional | loop => exact trivial
    | _ => cases made

variable {own : Node → Prop} {shown : List Char → Prop} {scope : Option Scope}
  {registry after : Registry} {location : Location} {nodes : List Node}

/-- A text is its plain lead and what is left after it. -/
theorem plainLead_append_afterLead (text : List Char) :
    plainLead text ++ afterLead text = text := by
  induction text with
  | nil => rfl
  | cons c rest induction =>
      rw [plainLead, afterLead]
      split
      · rfl
      · rw [List.cons_append, induction]

theorem afterLead_suffix (text : List Char) : afterLead text <:+ text :=
  ⟨plainLead text, plainLead_append_afterLead text⟩

/-- What stops the plain text is a brace or an element. -/
theorem eq_angle_of_afterLead {text rest : List Char} {c : Char} (other : c ≠ '{')
    (found : afterLead text = c :: rest) : c = '<' := by
  induction text with
  | nil => cases found
  | cons first more induction =>
      rw [afterLead] at found
      split at found
      · rename_i stops
        cases found
        rw [Bool.or_eq_true, decide_eq_true_iff, or_iff_right other] at stops
        unfold startsElement at stops
        split at stops
        · rename_i same
          exact (List.cons.inj same).1
        · cases stops
      · exact induction found

theorem tagName_prefix (text : List Char) : tagName text <+: text := by
  cases text with
  | nil => exact List.nil_prefix
  | cons first rest =>
      rw [tagName]
      split
      · exact (List.prefix_cons_inj _).mpr (List.takeWhile_prefix _)
      · exact List.nil_prefix

theorem textNodes_own (grounds : Grounds own shown) {raw : List Char} (fine : shown raw)
    (scope : Option Scope) (location : Location) :
    Everywhere own (textNodes scope location raw) := by
  have value : shown (if raw.contains '\n' then Text.trim raw else raw) := by
    split
    · exact grounds.part fine (Text.trim_inside raw)
    · exact fine
  unfold textNodes
  dsimp only
  by_cases empty : (if raw.contains '\n' then Text.trim raw else raw).isEmpty
  · rw [if_pos empty]
    exact Node.everywhere_nil
  · rw [if_neg empty, Node.everywhere_singleton]
    exact ⟨grounds.text value _, List.forall_mem_nil _⟩

theorem codeNodes_own (grounds : Grounds own shown) {raw : List Char} (fine : shown raw) :
    Everywhere own (codeNodes scope registry location raw).1 := by
  rw [codeNodes]
  split
  · exact Node.everywhere_nil
  · rw [Node.everywhere_singleton, grounds.expression, registerCode]
    exact ⟨by simpa using grounds.part fine (Text.trim_inside raw), List.forall_mem_nil _⟩

theorem elementNode_childLists (name : String) (attributes : List Attribute) (children : List Node)
    (site : Site) : (elementNode name attributes children site).childLists = [children] := by
  rw [elementNode]
  split <;> rfl

/-- Nodes that are read from code come from it. -/
theorem readChildren_own (grounds : Grounds own shown) {closed : Bool} {text : List Char}
    (fine : shown text)
    (ok : readChildren scope closed registry location text = .ok (nodes, after)) :
    Everywhere own nodes := by
  induction size : text.length using Nat.strongRecOn
    generalizing closed text registry location nodes after with
  | _ size induction =>
  subst size
  have lead := (afterLead_suffix text).isInfix
  have before : plainLead text <+: text := ⟨afterLead text, plainLead_append_afterLead text⟩
  have plain : Everywhere own (textNodes scope location (plainLead text)) :=
    textNodes_own grounds (grounds.part fine before.isInfix) scope location
  rcases readChildren_steps ok with ⟨-, rfl, -⟩ |
    ⟨rest, length, tail, found, -, shorter, rest_ok, rfl⟩ |
    ⟨c, rest, stop, header, children, middle, tail, other, found, ends, header_ok, smaller, shorter,
      inside_ok, rest_ok, rfl⟩
  · exact plain
  · rw [found] at lead
    have inside : rest <:+: text := (List.suffix_cons _ _).isInfix.trans lead
    have raw := grounds.part fine ((List.take_prefix length rest).isInfix.trans inside)
    have behind := grounds.part fine ((List.drop_suffix (length + 1) rest).isInfix.trans inside)
    rw [Node.everywhere_append, Node.everywhere_append]
    exact ⟨⟨plain, codeNodes_own grounds raw⟩, induction _ shorter behind rest_ok rfl⟩
  · obtain rfl := eq_angle_of_afterLead other found
    rw [found] at lead
    have inside : rest <:+: text := (List.suffix_cons _ _).isInfix.trans lead
    have element : rest.take (stop - 1) <:+: text :=
      (List.take_prefix (stop - 1) rest).isInfix.trans inside
    have below := induction _ smaller
      (grounds.part fine ((Text.slice_inside _ _ _).trans element)) inside_ok rfl
    have behind := induction _ shorter
      (grounds.part fine ((List.drop_suffix (stop - 1) rest).isInfix.trans inside)) rest_ok rfl
    rw [Node.everywhere_append, Node.everywhere_append]
    refine ⟨⟨plain, ?_⟩, behind⟩
    split at header_ok
    · rename_i nameless
      rw [if_pos nameless]
      exact below
    · rename_i named
      rw [if_neg named]
      rw [Node.everywhere_singleton, elementNode_childLists, List.forall_mem_singleton]
      refine ⟨grounds.read fine ⟨_, _, _, rest, stop, header, lead, ends, ?_, rfl, header_ok, rfl⟩
        children _, below⟩
      simpa using named

/-! ## Lowering -/

/-- What is lowered comes from code that may be shown. -/
def provenance (own : Node → Prop) (shown : List Char → Prop) : Invariant where
  fits text _ := shown text
  read := own
  left := own
  related _ _ := True

theorem Grounds.kept (grounds : Grounds own shown) : (provenance own shown).Kept where
  isLocal := grounds.isLocal
  refl _ := trivial
  trans _ _ := trivial
  register _ _ _ _ := trivial
  remove _ _ := trivial
  part fine count starts :=
    grounds.part fine (starts.isInfix.trans (List.drop_suffix count _).isInfix)
  markup fine ok := ⟨readChildren_own grounds fine ok, trivial⟩
  code said := grounds.expression.mp said
  stays said _ := said
  plain fine _ := grounds.expression.mpr fine
  fragment made := grounds.fragment made

/-- Lowering keeps what holds of a template and of whatever is read from its code. -/
theorem lower_own (grounds : Grounds own shown) {result : List Node} {file : String}
    (everywhere : Everywhere own nodes) (ok : lower nodes file registry = .ok (result, after)) :
    Everywhere own result :=
  (Invariant.lower_holds grounds.kept everywhere ok).left

/-- Every element of a lowered template is an element of the template or is read from its code. -/
theorem lower_each {holds : String → List Attribute → Prop} (traces : Traces holds shown)
    {result : List Node} {file : String} (each : EachAll holds shown nodes)
    (ok : lower nodes file registry = .ok (result, after)) : EachAll holds shown result := by
  rw [Node.eachAll_iff_everywhere] at each ⊢
  exact lower_own traces.grounds each ok

end Fragment
end ReactiveTemplate
