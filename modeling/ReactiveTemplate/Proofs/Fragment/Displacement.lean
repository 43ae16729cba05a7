import ReactiveTemplate.Fragment.Lowering
import ReactiveTemplate.Proofs.Fragment.Markup
import ReactiveTemplate.Proofs.Text.Offset
import ReactiveTemplate.Proofs.Tree.Displacement

/-!
# Lowering at other places

Where code stands decides nothing about what it is turned into: displaced nodes are lowered to
displaced nodes, or refused in both runs.
-/

namespace ReactiveTemplate
namespace Fragment

variable {scope : Option Scope} {registry registry' : Registry}

/-! ## Attributes -/

theorem registerCode_displaced (scope : Option Scope) (same : registry.SameIds registry')
    (location location' : Location) (raw : List Char) :
    (registerCode scope registry location raw).1.Displaced
        (registerCode scope registry' location' raw).1 ∧
      (registerCode scope registry location raw).2.SameIds
        (registerCode scope registry' location' raw).2 := by
  let code := String.ofList (Text.trim raw)
  obtain ⟨new, after⟩ := same.register "expr" code code
    (location.advance (raw.take (Text.blankLead raw)))
    (location'.advance (raw.take (Text.blankLead raw))) scope scope
  exact ⟨⟨new, rfl, rfl⟩, after⟩

/-- Values that have been read are the same but for locations. -/
structure ReadValue.Displaced (read read' : ReadValue) : Prop where
  value : read.value.Alike Expression.Displaced read'.value
  length : read.length = read'.length
  registry : read.registry.SameIds read'.registry

theorem readValue_displaced (scope : Option Scope) (same : registry.SameIds registry')
    (name : String) (nameLocation nameLocation' location location' : Location)
    (text : List Char) :
    Concurs ReadValue.Displaced (readValue scope registry name nameLocation location text)
      (readValue scope registry' name nameLocation' location' text) := by
  unfold readValue
  split
  · rename_i rest
    cases Code.closingFrom .afterOpening rest with
    | none => exact .error _ _
    | some length =>
        obtain ⟨code, after⟩ := registerCode_displaced scope same (location.next '{')
          (location'.next '{') (rest.take length)
        exact .ok ⟨.dynamic code, rfl, after⟩
  · exact .ok ⟨.fixed _, rfl, same⟩
  · split
    · exact .ok ⟨.fixed _, rfl, same⟩
    · split
      · exact .ok ⟨.fixed _, rfl, same⟩
      · exact .ok ⟨.fixed _, rfl, same⟩

theorem readAssignment_displaced (scope : Option Scope) (same : registry.SameIds registry')
    (name : String) (nameLocation nameLocation' location location' : Location)
    (text : List Char) :
    Concurs ReadValue.Displaced (readAssignment scope registry name nameLocation location text)
      (readAssignment scope registry' name nameLocation' location' text) := by
  unfold readAssignment
  dsimp only
  split
  · rename_i rest _
    let before := text.takeWhile Code.isAsciiSpace ++ '=' :: rest.takeWhile Code.isAsciiSpace
    rcases (readValue_displaced scope same name nameLocation nameLocation'
        (location.advance before) (location'.advance before)
        (rest.drop (rest.takeWhile Code.isAsciiSpace).length)).error_or_ok with
      ⟨fault, fault', left, right⟩ | ⟨read, read', both, left, right⟩
    · rw [left, right]
      exact .error _ _
    · rw [left, right]
      exact .ok ⟨both.value, congrArg (_ + ·) both.length, both.registry⟩
  · exact .ok ⟨.fixed _, rfl, same⟩

/-- Headers are the same but for locations. -/
structure Header.Displaced (header header' : Header) : Prop where
  attributes : Attribute.AllDisplaced header.attributes header'.attributes
  selfClosing : header.selfClosing = header'.selfClosing
  length : header.length = header'.length
  registry : header.registry.SameIds header'.registry

theorem Header.Displaced.later {header header' : Header} (displaced : header.Displaced header') :
    header.later.Displaced header'.later :=
  ⟨displaced.attributes, displaced.selfClosing, congrArg (· + 1) displaced.length,
    displaced.registry⟩

theorem readHeader_displaced (scope : Option Scope) (skip : Nat) (text : List Char)
    (location location' : Location) (same : registry.SameIds registry') :
    Concurs Header.Displaced (readHeader scope registry location skip text)
      (readHeader scope registry' location' skip text) := by
  induction text generalizing skip registry registry' location location' with
  | nil =>
      simp only [readHeader]
      exact .ok ⟨.nil, rfl, rfl, same⟩
  | cons c rest induction =>
      cases skip with
      | succ skip =>
          rw [readHeader, readHeader]
          rcases (induction skip (location.next c) (location'.next c) same).error_or_ok with
            ⟨fault, fault', left, right⟩ | ⟨header, header', others, left, right⟩
          · rw [left, right]
            exact .error _ _
          · rw [left, right]
            exact .ok others.later
      | zero =>
          rw [readHeader, readHeader]
          split
          · exact .ok ⟨.nil, rfl, rfl, same⟩
          split
          · exact .ok ⟨.nil, rfl, rfl, same⟩
          split
          · dsimp only
            let name := c :: rest.takeWhile continuesName
            rcases (readAssignment_displaced scope same (attributeName name) location location'
                (location.advance name) (location'.advance name)
                (rest.drop (rest.takeWhile continuesName).length)).error_or_ok with
              ⟨fault, fault', left, right⟩ | ⟨read, read', both, left, right⟩
            · rw [left, right]
              exact .error _ _
            · rw [left, right]
              dsimp only
              rw [← both.length]
              rcases (induction ((rest.takeWhile continuesName).length + read.length)
                  (location.next c) (location'.next c) both.registry).error_or_ok with
                ⟨fault, fault', left, right⟩ | ⟨header, header', others, left, right⟩
              · rw [left, right]
                exact .error _ _
              · rw [left, right]
                exact .ok ⟨.cons ⟨rfl, both.value, rfl⟩ others.attributes, others.selfClosing,
                  others.later.length, others.registry⟩
          · -- a character that belongs to no attribute
            dsimp only
            rcases (induction _ (location.next c) (location'.next c) same).error_or_ok with
              ⟨fault, fault', left, right⟩ | ⟨header, header', others, left, right⟩
            · rw [left, right]
              exact .error _ _
            · rw [left, right]
              exact .ok others.later

theorem readOpening_displaced (scope : Option Scope) (same : registry.SameIds registry')
    (location location' : Location) (inside : List Char) :
    Concurs Header.Displaced (readOpening scope registry location inside)
      (readOpening scope registry' location' inside) := by
  rw [readOpening, readOpening]
  split
  · exact .ok ⟨.nil, rfl, rfl, same⟩
  · exact readHeader_displaced scope 0 _ _ _ same

/-! ## Children -/

theorem textNodes_displaced (scope : Option Scope) (location location' : Location)
    (raw : List Char) :
    Node.Displaced (textNodes scope location raw) (textNodes scope location' raw) := by
  unfold textNodes
  dsimp only
  by_cases empty : (if raw.contains '\n' then Text.trim raw else raw).isEmpty
  · rw [if_pos empty, if_pos empty]
    exact .nil
  · rw [if_neg empty, if_neg empty]
    exact .text rfl .nil

theorem codeNodes_displaced (scope : Option Scope) (same : registry.SameIds registry')
    (location location' : Location) (raw : List Char) :
    MadeDisplaced (codeNodes scope registry location raw)
      (codeNodes scope registry' location' raw) := by
  rw [codeNodes, codeNodes]
  split
  · exact ⟨.nil, same⟩
  · obtain ⟨code, after⟩ := registerCode_displaced scope same location location' raw
    exact ⟨.expression code .nil, after⟩

theorem elementNode_displaced {name : String} {attributes attributes' : List Attribute}
    {children children' : List Node} {site site' : Site}
    (own : Attribute.AllDisplaced attributes attributes') (scopes : site.scope = site'.scope)
    (below : Node.Displaced children children') :
    Node.Displaced [elementNode name attributes children site]
      [elementNode name attributes' children' site'] := by
  rw [elementNode, elementNode]
  split
  · exact .component own scopes below .nil
  · exact .element own scopes below .nil

/-- The same text is read as displaced nodes, or refused at both places. -/
theorem readChildren_displaced (scope : Option Scope) (closed : Bool)
    (location location' : Location) (text : List Char) (same : registry.SameIds registry') :
    Concurs MadeDisplaced (readChildren scope closed registry location text)
      (readChildren scope closed registry' location' text) := by
  -- what is read inside and behind the first element is shorter than the text
  induction size : text.length using Nat.strongRecOn
    generalizing closed text registry registry' location location' with
  | _ size induction =>
  subst size
  have lead := length_afterLead_le text
  have plain := textNodes_displaced scope location location' (plainLead text)
  cases after : afterLead text with
  | nil =>
      rw [readChildren_ended _ _ _ _ after, readChildren_ended _ _ _ _ after]
      exact .ok ⟨plain, same⟩
  | cons c rest =>
      rw [after, List.length_cons] at lead
      by_cases brace : c = '{'
      · subst brace
        rw [readChildren_code _ _ _ _ after, readChildren_code _ _ _ _ after]
        cases Code.closingFrom .afterOpening rest with
        | none => exact .error _ _
        | some length =>
            obtain ⟨own, later⟩ := codeNodes_displaced scope same
              ((location.advance (plainLead text)).next '{')
              ((location'.advance (plainLead text)).next '{') (rest.take length)
            have shorter : (rest.drop (length + 1)).length < text.length := by
              rw [List.length_drop]
              omega
            refine (induction _ shorter _ _ _ _ later rfl).bind fun read read' behind => ?_
            exact .ok ⟨(plain.append own).append behind.1, behind.2⟩
      · rw [readChildren_element _ _ _ _ brace after, readChildren_element _ _ _ _ brace after]
        cases Code.markupEndFrom {} (c :: rest) with
        | none => exact .error _ _
        | some stop =>
            refine (readOpening_displaced scope same _ _ _).bind fun header header' both => ?_
            have range (closed : Bool) (element name : List Char) :
                insideRange closed element name header' =
                  insideRange closed element name header := by
              rw [insideRange, insideRange, both.selfClosing, both.length]
            rw [range]
            refine (induction _ ?_ _ _ _ _ both.registry rfl).bind fun children children' below => ?_
            · simp only [Text.length_slice, List.length_take]
              omega
            refine (induction _ ?_ _ _ _ _ below.2 rfl).bind fun read read' behind => ?_
            · rw [List.length_drop]
              omega
            refine .ok ⟨(plain.append ?_).append behind.1, behind.2⟩
            split
            · exact below.1
            · exact elementNode_displaced both.attributes rfl below.1

/-! ## Lowering -/

/-- Displaced expressions are turned into displaced nodes, or refused in both runs. -/
def Placeless (lowerOne : Expression → Action (List Node)) : Prop :=
  ∀ {e e' registry registry'}, e.Displaced e' → registry.SameIds registry' →
    Concurs MadeDisplaced (lowerOne e registry) (lowerOne e' registry')

variable {lowerOne : Expression → Action (List Node)} {nodes nodes' : List Node}

theorem checkAttributes_displaced {attributes attributes' : List Attribute}
    (displaced : Attribute.AllDisplaced attributes attributes') :
    Concurs (fun _ _ => True) (checkAttributes attributes) (checkAttributes attributes') := by
  induction displaced with
  | nil => exact .ok trivial
  | @cons attr attr' rest rest' own _ induction =>
      obtain ⟨name, value, site⟩ := attr
      obtain ⟨name', value', site'⟩ := attr'
      obtain ⟨rfl, values, scopes⟩ := own
      rw [checkAttributes, checkAttributes, checkAttribute, checkAttribute]
      cases values with
      | fixed text => exact induction
      | @dynamic e e' both =>
          simp only [both.code]
          cases Code.findsMarkup? e'.code.toList with
          | none => exact .error _ _
          | some found =>
              cases found with
              | true => exact .error _ _
              | false => exact induction

private theorem lowerNodes_concurs {node node' : Node} {rest rest' : List Node}
    (own : Concurs MadeDisplaced (lowerNode lowerOne node registry)
      (lowerNode lowerOne node' registry'))
    (behind : ∀ {registry registry' : Registry}, registry.SameIds registry' →
      Concurs MadeDisplaced (lowerNodes lowerOne rest registry)
        (lowerNodes lowerOne rest' registry')) :
    Concurs MadeDisplaced (lowerNodes lowerOne (node :: rest) registry)
      (lowerNodes lowerOne (node' :: rest') registry') := by
  rw [lowerNodes, lowerNodes]
  refine own.bind fun first first' made => ?_
  refine (behind made.2).bind fun others others' more => ?_
  exact .ok ⟨made.1.append more.1, more.2⟩

theorem lowerNodes_displaced (placeless : Placeless lowerOne)
    (displaced : Node.Displaced nodes nodes') (same : registry.SameIds registry') :
    Concurs MadeDisplaced (lowerNodes lowerOne nodes registry)
      (lowerNodes lowerOne nodes' registry') := by
  induction displaced generalizing registry registry' with
  | nil => exact .ok ⟨.nil, same⟩
  | element attributes scope _ _ below behind =>
      refine lowerNodes_concurs ?_ behind
      rw [lowerNode, lowerNode]
      refine (checkAttributes_displaced attributes).bind fun _ _ _ => ?_
      refine (below same).bind fun inner inner' made => ?_
      exact .ok ⟨.element attributes scope made.1 .nil, made.2⟩
  | component attributes scope _ _ below behind =>
      refine lowerNodes_concurs ?_ behind
      rw [lowerNode, lowerNode]
      refine (checkAttributes_displaced attributes).bind fun _ _ _ => ?_
      refine (below same).bind fun inner inner' made => ?_
      exact .ok ⟨.component attributes scope made.1 .nil, made.2⟩
  | text scope _ behind =>
      refine lowerNodes_concurs ?_ behind
      rw [lowerNode, lowerNode]
      exact .ok ⟨.text scope .nil, same⟩
  | expression own _ behind =>
      refine lowerNodes_concurs ?_ behind
      rw [lowerNode, lowerNode]
      exact placeless own same
  | conditional scope _ _ _ left right behind =>
      refine lowerNodes_concurs ?_ behind
      rw [lowerNode, lowerNode]
      refine (left same).bind fun first first' one => ?_
      refine (right one.2).bind fun second second' two => ?_
      exact .ok ⟨.conditional scope one.1 two.1 .nil, two.2⟩
  | optional scope _ _ below behind =>
      refine lowerNodes_concurs ?_ behind
      rw [lowerNode, lowerNode]
      refine (below same).bind fun inner inner' made => ?_
      exact .ok ⟨.optional scope made.1 .nil, made.2⟩
  | loop scope _ _ below behind =>
      refine lowerNodes_concurs ?_ behind
      rw [lowerNode, lowerNode]
      refine (below same).bind fun inner inner' made => ?_
      exact .ok ⟨.loop scope made.1 .nil, made.2⟩
  | doctype _ behind =>
      refine lowerNodes_concurs ?_ behind
      rw [lowerNode, lowerNode]
      exact .ok ⟨.doctype .nil, same⟩

theorem readBranch_displaced (placeless : Placeless lowerOne) (scope : Option Scope)
    (code : List Char) (location location' : Location) (same : registry.SameIds registry') :
    Concurs MadeDisplaced (readBranch lowerOne code location scope registry)
      (readBranch lowerOne code location' scope registry') := by
  unfold readBranch
  dsimp only
  split
  · exact .ok ⟨.nil, same⟩
  split
  · refine (readChildren_displaced scope false _ _ _ same).bind fun read read' made => ?_
    exact lowerNodes_displaced placeless made.1 made.2
  · obtain ⟨new, after⟩ := same.register "expr" _ _ _ _ scope scope
    exact placeless ⟨new, rfl, rfl⟩ after

theorem lowerShape_displaced (placeless : Placeless lowerOne) {e e' : Expression}
    (own : e.Displaced e') (shape : Code.Shape) (same : registry.SameIds registry') :
    Concurs MadeDisplaced (lowerShape lowerOne e shape registry)
      (lowerShape lowerOne e' shape registry') := by
  cases shape with
  | primitive => exact .ok ⟨.expression own .nil, same⟩
  | unknown | crash => exact .error _ _
  | fragment markup =>
      rw [lowerShape, lowerShape, own.scope, own.id]
      refine (readBranch_displaced placeless _ _ _ _ same).bind fun read read' made => ?_
      exact .ok ⟨made.1, made.2.remove _⟩
  | conditional condition consequent alternate =>
      rw [lowerShape, lowerShape, own.scope, own.id]
      obtain ⟨-, issued⟩ := same.register "cond" (segmentText condition) (segmentText condition)
        (segmentLocation e condition) (segmentLocation e' condition) e'.scope e'.scope
      refine (readBranch_displaced placeless _ _ _ _ issued).bind fun first first' one => ?_
      refine (readBranch_displaced placeless _ _ _ _ one.2).bind fun second second' two => ?_
      rw [← same.next]
      exact .ok ⟨.conditional rfl one.1 two.1 .nil, two.2.remove _⟩
  | optional condition branch =>
      rw [lowerShape, lowerShape, own.scope, own.id]
      obtain ⟨-, issued⟩ := same.register "opt" (segmentText condition) (segmentText condition)
        (segmentLocation e condition) (segmentLocation e' condition) e'.scope e'.scope
      refine (readBranch_displaced placeless _ _ _ _ issued).bind fun read read' made => ?_
      rw [← same.next]
      exact .ok ⟨.optional rfl made.1 .nil, made.2.remove _⟩
  | loop source binder body =>
      rw [lowerShape, lowerShape, own.scope, own.id]
      obtain ⟨new, issued⟩ := same.register "loop" (segmentText source) (segmentText source)
        (segmentLocation e source) (segmentLocation e' source) e'.scope e'.scope
      dsimp only
      rw [new]
      refine (readBranch_displaced placeless _ _ _ _ issued).bind fun read read' made => ?_
      exact .ok ⟨.loop rfl made.1 .nil, made.2.remove _⟩

theorem lowerWithin_placeless (depth : Nat) : Placeless (lowerWithin depth) := by
  induction depth with
  | zero =>
      intro e e' registry registry' own same
      exact .error _ _
  | succ depth induction =>
      intro e e' registry registry' own same
      rw [lowerWithin, lowerWithin, own.code]
      exact lowerShape_displaced induction own _ same

/-- Displaced nodes are lowered to displaced nodes, or refused in both runs. -/
theorem lower_displaced (file : String) (displaced : Node.Displaced nodes nodes')
    (same : registry.SameIds registry') :
    Concurs MadeDisplaced (lower nodes file registry) (lower nodes' file registry') := by
  have placeless : Placeless lowerExpression := by
    intro e e' registry registry' own same
    rw [lowerExpression, lowerExpression, own.code]
    exact lowerWithin_placeless _ own same
  exact (lowerNodes_displaced placeless displaced same).reportIn file

end Fragment
end ReactiveTemplate
