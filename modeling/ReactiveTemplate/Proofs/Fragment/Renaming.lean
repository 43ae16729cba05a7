import ReactiveTemplate.Fragment.Lowering
import ReactiveTemplate.Proofs.Fragment.Markup
import ReactiveTemplate.Proofs.Text.Offset
import ReactiveTemplate.Proofs.Tree.Renaming

/-!
# Lowering with other ids

What markup is read from code, and what expressions are turned into, depends on the text alone: with
registries in step, renamed nodes are lowered to renamed nodes, or refused for the same reason.
-/

namespace ReactiveTemplate
namespace Fragment

variable {same : String → String → Prop} {scope scope' : Option Scope}
variable {registry registry' : Registry}

/-! ## Attributes -/

theorem registerCode_renamed (scopes : Scope.Renamed same scope scope')
    (inStep : registry.InStep same registry') (location : Location) (raw : List Char) :
    (registerCode scope registry location raw).1.Renamed same
        (registerCode scope' registry' location raw).1 ∧
      (registerCode scope registry location raw).2.InStep same
        (registerCode scope' registry' location raw).2 := by
  obtain ⟨new, after⟩ := inStep.register "expr" (String.ofList (Text.trim raw))
    (location.advance (raw.take (Text.blankLead raw))) scope scope'
  exact ⟨⟨new, rfl, rfl, scopes⟩, after⟩

/-- Values that have been read are the same up to ids. -/
structure ReadValue.Renamed (same : String → String → Prop) (read read' : ReadValue) : Prop where
  value : read.value.Alike (Expression.Renamed same) read'.value
  length : read.length = read'.length
  registry : read.registry.InStep same read'.registry

theorem readValue_renamed (scopes : Scope.Renamed same scope scope')
    (inStep : registry.InStep same registry') (name : String) (nameLocation location : Location)
    (text : List Char) :
    Corresponds (ReadValue.Renamed same) (readValue scope registry name nameLocation location text)
      (readValue scope' registry' name nameLocation location text) := by
  unfold readValue
  split
  · rename_i rest
    cases Code.closingFrom .afterOpening rest with
    | none => exact .error _
    | some length =>
        obtain ⟨code, after⟩ := registerCode_renamed scopes inStep (location.next '{')
          (rest.take length)
        exact .ok ⟨.dynamic code, rfl, after⟩
  · exact .ok ⟨.fixed _, rfl, inStep⟩
  · split
    · exact .ok ⟨.fixed _, rfl, inStep⟩
    · split
      · exact .ok ⟨.fixed _, rfl, inStep⟩
      · exact .ok ⟨.fixed _, rfl, inStep⟩

theorem readAssignment_renamed (scopes : Scope.Renamed same scope scope')
    (inStep : registry.InStep same registry') (name : String) (nameLocation location : Location)
    (text : List Char) :
    Corresponds (ReadValue.Renamed same)
      (readAssignment scope registry name nameLocation location text)
      (readAssignment scope' registry' name nameLocation location text) := by
  unfold readAssignment
  dsimp only
  split
  · rename_i rest _
    let before := text.takeWhile Code.isAsciiSpace ++ '=' :: rest.takeWhile Code.isAsciiSpace
    rcases (readValue_renamed scopes inStep name nameLocation (location.advance before)
        (rest.drop (rest.takeWhile Code.isAsciiSpace).length)).error_or_ok with
      ⟨fault, left, right⟩ | ⟨read, read', both, left, right⟩
    · rw [left, right]
      exact .error fault
    · rw [left, right]
      exact .ok ⟨both.value, congrArg (_ + ·) both.length, both.registry⟩
  · exact .ok ⟨.fixed _, rfl, inStep⟩

/-- Headers are the same up to ids. -/
structure Header.Renamed (same : String → String → Prop) (header header' : Header) : Prop where
  attributes : List.Forall₂ (Attribute.Renamed same) header.attributes header'.attributes
  selfClosing : header.selfClosing = header'.selfClosing
  length : header.length = header'.length
  registry : header.registry.InStep same header'.registry

theorem Header.Renamed.later {header header' : Header} (renamed : header.Renamed same header') :
    header.later.Renamed same header'.later :=
  ⟨renamed.attributes, renamed.selfClosing, congrArg (· + 1) renamed.length, renamed.registry⟩

theorem readHeader_renamed (scopes : Scope.Renamed same scope scope') (skip : Nat)
    (text : List Char) (location : Location) (inStep : registry.InStep same registry') :
    Corresponds (Header.Renamed same) (readHeader scope registry location skip text)
      (readHeader scope' registry' location skip text) := by
  induction text generalizing skip registry registry' location with
  | nil =>
      simp only [readHeader]
      exact .ok ⟨.nil, rfl, rfl, inStep⟩
  | cons c rest induction =>
      cases skip with
      | succ skip =>
          rw [readHeader, readHeader]
          rcases (induction skip (location.next c) inStep).error_or_ok with
            ⟨fault, left, right⟩ | ⟨header, header', others, left, right⟩
          · rw [left, right]
            exact .error fault
          · rw [left, right]
            exact .ok others.later
      | zero =>
          rw [readHeader, readHeader]
          split
          · exact .ok ⟨.nil, rfl, rfl, inStep⟩
          split
          · exact .ok ⟨.nil, rfl, rfl, inStep⟩
          split
          · dsimp only
            rcases (readAssignment_renamed scopes inStep
                (attributeName (c :: rest.takeWhile continuesName)) location
                (location.advance (c :: rest.takeWhile continuesName))
                (rest.drop (rest.takeWhile continuesName).length)).error_or_ok with
              ⟨fault, left, right⟩ | ⟨read, read', both, left, right⟩
            · rw [left, right]
              exact .error fault
            · rw [left, right]
              dsimp only
              rw [← both.length]
              rcases (induction ((rest.takeWhile continuesName).length + read.length)
                  (location.next c) both.registry).error_or_ok with
                ⟨fault, left, right⟩ | ⟨header, header', others, left, right⟩
              · rw [left, right]
                exact .error fault
              · rw [left, right]
                exact .ok ⟨.cons ⟨rfl, both.value, rfl, scopes⟩ others.attributes,
                  others.selfClosing, others.later.length, others.registry⟩
          · dsimp only
            generalize (if c = '{' then _ else 0) = skip
            rcases (induction skip (location.next c) inStep).error_or_ok with
              ⟨fault, left, right⟩ | ⟨header, header', others, left, right⟩
            · rw [left, right]
              exact .error fault
            · rw [left, right]
              exact .ok others.later

/-! ## Children -/

theorem textNodes_renamed (scopes : Scope.Renamed same scope scope') (location : Location)
    (raw : List Char) :
    Node.Renamed same (textNodes scope location raw) (textNodes scope' location raw) := by
  unfold textNodes
  dsimp only
  by_cases empty : (if raw.contains '\n' then Text.trim raw else raw).isEmpty
  · rw [if_pos empty, if_pos empty]
    exact .nil
  · rw [if_neg empty, if_neg empty]
    exact .text ⟨rfl, scopes⟩ .nil

theorem codeNodes_renamed (scopes : Scope.Renamed same scope scope')
    (inStep : registry.InStep same registry') (location : Location) (raw : List Char) :
    Node.Renamed same (codeNodes scope registry location raw).1
        (codeNodes scope' registry' location raw).1 ∧
      (codeNodes scope registry location raw).2.InStep same
        (codeNodes scope' registry' location raw).2 := by
  rw [codeNodes, codeNodes]
  split
  · exact ⟨.nil, inStep⟩
  · obtain ⟨code, after⟩ := registerCode_renamed scopes inStep location raw
    exact ⟨.expression code .nil, after⟩

theorem elementNode_renamed {name : String} {attributes attributes' : List Attribute}
    {children children' : List Node} {site site' : Site}
    (own : List.Forall₂ (Attribute.Renamed same) attributes attributes')
    (sites : site.Renamed same site') (below : Node.Renamed same children children') :
    Node.Renamed same [elementNode name attributes children site]
      [elementNode name attributes' children' site'] := by
  rw [elementNode, elementNode]
  split
  · exact .component own sites below .nil
  · exact .element own sites below .nil

/-- Nodes that have been made are the same up to ids, and the registries are in step. -/
def Made (same : String → String → Prop) (made made' : List Node × Registry) : Prop :=
  Node.Renamed same made.1 made'.1 ∧ made.2.InStep same made'.2

theorem readOpening_renamed (scopes : Scope.Renamed same scope scope')
    (inStep : registry.InStep same registry') (location : Location) (inside : List Char) :
    Corresponds (Header.Renamed same) (readOpening scope registry location inside)
      (readOpening scope' registry' location inside) := by
  rw [readOpening, readOpening]
  split
  · exact .ok ⟨.nil, rfl, rfl, inStep⟩
  · exact readHeader_renamed scopes 0 _ _ inStep

/-- The same text is read as renamed nodes, or refused for the same reason. -/
theorem readChildren_renamed (scopes : Scope.Renamed same scope scope') (closed : Bool)
    (location : Location) (text : List Char) (inStep : registry.InStep same registry') :
    Corresponds (Made same) (readChildren scope closed registry location text)
      (readChildren scope' closed registry' location text) := by
  -- what is read inside and behind the first element is shorter than the text
  induction size : text.length using Nat.strongRecOn
    generalizing closed text registry registry' location with
  | _ size induction =>
  subst size
  have lead := length_afterLead_le text
  have plain := textNodes_renamed scopes location (plainLead text)
  cases after : afterLead text with
  | nil =>
      rw [readChildren_ended _ _ _ _ after, readChildren_ended _ _ _ _ after]
      exact .ok ⟨plain, inStep⟩
  | cons c rest =>
      rw [after, List.length_cons] at lead
      by_cases brace : c = '{'
      · subst brace
        rw [readChildren_code _ _ _ _ after, readChildren_code _ _ _ _ after]
        cases Code.closingFrom .afterOpening rest with
        | none => exact .error _
        | some length =>
            obtain ⟨own, later⟩ := codeNodes_renamed scopes inStep
              ((location.advance (plainLead text)).next '{') (rest.take length)
            have shorter : (rest.drop (length + 1)).length < text.length := by
              rw [List.length_drop]
              omega
            refine (induction _ shorter _ _ _ later rfl).bind fun read read' behind => ?_
            exact .ok ⟨(plain.append own).append behind.1, behind.2⟩
      · rw [readChildren_element _ _ _ _ brace after, readChildren_element _ _ _ _ brace after]
        cases Code.markupEndFrom {} (c :: rest) with
        | none => exact .error _
        | some stop =>
            refine (readOpening_renamed scopes inStep _ _).bind fun header header' both => ?_
            have range (closed : Bool) (element name : List Char) :
                insideRange closed element name header' =
                  insideRange closed element name header := by
              rw [insideRange, insideRange, both.selfClosing, both.length]
            rw [range]
            refine (induction _ ?_ _ _ _ both.registry rfl).bind fun children children' below => ?_
            · simp only [Text.length_slice, List.length_take]
              omega
            refine (induction _ ?_ _ _ _ below.2 rfl).bind fun read read' behind => ?_
            · rw [List.length_drop]
              omega
            refine .ok ⟨(plain.append ?_).append behind.1, behind.2⟩
            split
            · exact below.1
            · exact elementNode_renamed both.attributes ⟨rfl, scopes⟩ below.1

/-! ## Lowering -/

/-- Renamed expressions are turned into renamed nodes, or refused for the same reason. -/
def Follows (same : String → String → Prop) (lowerOne : Expression → Action (List Node)) : Prop :=
  ∀ {e e' registry registry'}, e.Renamed same e' → registry.InStep same registry' →
    Corresponds (Made same) (lowerOne e registry) (lowerOne e' registry')

variable {lowerOne : Expression → Action (List Node)} {nodes nodes' : List Node}

theorem checkAttributes_renamed {attributes attributes' : List Attribute}
    (renamed : List.Forall₂ (Attribute.Renamed same) attributes attributes') :
    checkAttributes attributes = checkAttributes attributes' := by
  induction renamed with
  | nil => rfl
  | @cons attr attr' rest rest' own _ induction =>
      obtain ⟨name, value, site⟩ := attr
      obtain ⟨name', value', site'⟩ := attr'
      obtain ⟨rfl, values, sites⟩ := own
      have places : site.location = site'.location := sites.location
      have checked : checkAttribute ⟨name, value, site⟩ = checkAttribute ⟨name, value', site'⟩ := by
        cases values with
        | fixed text => rfl
        | dynamic own => simp only [checkAttribute, own.code, places]
      rw [checkAttributes, checkAttributes, checked, induction]

theorem checkAttributes_corresponds {attributes attributes' : List Attribute}
    (renamed : List.Forall₂ (Attribute.Renamed same) attributes attributes') :
    Corresponds (fun _ _ => True) (checkAttributes attributes) (checkAttributes attributes') := by
  rw [checkAttributes_renamed renamed]
  cases checkAttributes attributes' with
  | error misstep => exact .error misstep
  | ok _ => exact .ok trivial

private theorem lowerNodes_cons {node node' : Node} {rest rest' : List Node}
    (own : Corresponds (Made same) (lowerNode lowerOne node registry)
      (lowerNode lowerOne node' registry'))
    (behind : ∀ {registry registry' : Registry}, registry.InStep same registry' →
      Corresponds (Made same) (lowerNodes lowerOne rest registry)
        (lowerNodes lowerOne rest' registry')) :
    Corresponds (Made same) (lowerNodes lowerOne (node :: rest) registry)
      (lowerNodes lowerOne (node' :: rest') registry') := by
  rw [lowerNodes, lowerNodes]
  refine own.bind fun first first' made => ?_
  refine (behind made.2).bind fun others others' more => ?_
  exact .ok ⟨made.1.append more.1, more.2⟩

theorem lowerNodes_renamed (follows : Follows same lowerOne)
    (renamed : Node.Renamed same nodes nodes') (inStep : registry.InStep same registry') :
    Corresponds (Made same) (lowerNodes lowerOne nodes registry)
      (lowerNodes lowerOne nodes' registry') := by
  induction renamed generalizing registry registry' with
  | nil => exact .ok ⟨.nil, inStep⟩
  | element attributes site _ _ below behind =>
      refine lowerNodes_cons ?_ behind
      rw [lowerNode, lowerNode]
      refine (checkAttributes_corresponds attributes).bind fun _ _ _ => ?_
      refine (below inStep).bind fun inner inner' made => ?_
      exact .ok ⟨.element attributes site made.1 .nil, made.2⟩
  | component attributes site _ _ below behind =>
      refine lowerNodes_cons ?_ behind
      rw [lowerNode, lowerNode]
      refine (checkAttributes_corresponds attributes).bind fun _ _ _ => ?_
      refine (below inStep).bind fun inner inner' made => ?_
      exact .ok ⟨.component attributes site made.1 .nil, made.2⟩
  | text site _ behind =>
      refine lowerNodes_cons ?_ behind
      rw [lowerNode, lowerNode]
      exact .ok ⟨.text site .nil, inStep⟩
  | expression own _ behind =>
      refine lowerNodes_cons ?_ behind
      rw [lowerNode, lowerNode]
      exact follows own inStep
  | conditional own _ _ _ left right behind =>
      refine lowerNodes_cons ?_ behind
      rw [lowerNode, lowerNode]
      refine (left inStep).bind fun first first' one => ?_
      refine (right one.2).bind fun second second' two => ?_
      exact .ok ⟨.conditional own one.1 two.1 .nil, two.2⟩
  | optional own _ _ below behind =>
      refine lowerNodes_cons ?_ behind
      rw [lowerNode, lowerNode]
      refine (below inStep).bind fun inner inner' made => ?_
      exact .ok ⟨.optional own made.1 .nil, made.2⟩
  | loop own _ _ below behind =>
      refine lowerNodes_cons ?_ behind
      rw [lowerNode, lowerNode]
      refine (below inStep).bind fun inner inner' made => ?_
      exact .ok ⟨.loop own made.1 .nil, made.2⟩
  | doctype _ behind =>
      refine lowerNodes_cons ?_ behind
      rw [lowerNode, lowerNode]
      exact .ok ⟨.doctype .nil, inStep⟩

theorem readBranch_renamed (follows : Follows same lowerOne)
    (scopes : Scope.Renamed same scope scope') (code : List Char) (location : Location)
    (inStep : registry.InStep same registry') :
    Corresponds (Made same) (readBranch lowerOne code location scope registry)
      (readBranch lowerOne code location scope' registry') := by
  unfold readBranch
  dsimp only
  split
  · exact .ok ⟨.nil, inStep⟩
  split
  · refine (readChildren_renamed scopes false _ _ inStep).bind fun read read' made => ?_
    exact lowerNodes_renamed follows made.1 made.2
  · obtain ⟨new, after⟩ := inStep.register "expr" _ _ scope scope'
    exact follows ⟨new, rfl, rfl, scopes⟩ after

theorem lowerShape_renamed (follows : Follows same lowerOne) {e e' : Expression}
    (own : e.Renamed same e') (shape : Code.Shape) (inStep : registry.InStep same registry') :
    Corresponds (Made same) (lowerShape lowerOne e shape registry)
      (lowerShape lowerOne e' shape registry') := by
  have segments : segmentLocation e = segmentLocation e' := by
    funext segment
    rw [segmentLocation, segmentLocation, own.code, own.location]
  have head {id id' : String} (new : same id id') (text : String) :
      Expression.Renamed same ⟨id, text, e.location, e.scope⟩
        ⟨id', text, e'.location, e'.scope⟩ := ⟨new, rfl, own.location, own.scope⟩
  cases shape with
  | primitive => exact .ok ⟨.expression own .nil, inStep⟩
  | unknown | crash =>
      rw [lowerShape, lowerShape, own.code, own.location]
      exact .error _
  | fragment markup =>
      rw [lowerShape, lowerShape, segments]
      refine (readBranch_renamed follows own.scope _ _ inStep).bind fun read read' made => ?_
      exact .ok ⟨made.1, made.2⟩
  | conditional condition consequent alternate =>
      rw [lowerShape, lowerShape, segments]
      obtain ⟨new, issued⟩ := inStep.register "cond" (segmentText condition)
        (segmentLocation e' condition) e.scope e'.scope
      refine (readBranch_renamed follows own.scope _ _ issued).bind fun first first' one => ?_
      refine (readBranch_renamed follows own.scope _ _ one.2).bind fun second second' two => ?_
      exact .ok ⟨.conditional (head new _) one.1 two.1 .nil, two.2⟩
  | optional condition branch =>
      rw [lowerShape, lowerShape, segments]
      obtain ⟨new, issued⟩ := inStep.register "opt" (segmentText condition)
        (segmentLocation e' condition) e.scope e'.scope
      refine (readBranch_renamed follows own.scope _ _ issued).bind fun read read' made => ?_
      exact .ok ⟨.optional (head new _) made.1 .nil, made.2⟩
  | loop source binder body =>
      rw [lowerShape, lowerShape, segments]
      obtain ⟨new, issued⟩ := inStep.register "loop" (segmentText source)
        (segmentLocation e' source) e.scope e'.scope
      have inside := own.scope.insideLoop new binder.bound
      refine (readBranch_renamed follows inside _ _ issued).bind fun read read' made => ?_
      exact .ok ⟨.loop (head new _) made.1 .nil, made.2⟩

theorem lowerWithin_follows (depth : Nat) : Follows same (lowerWithin depth) := by
  induction depth with
  | zero =>
      intro e e' registry registry' own inStep
      rw [lowerWithin, lowerWithin, own.code, own.location]
      exact .error _
  | succ depth induction =>
      intro e e' registry registry' own inStep
      rw [lowerWithin, lowerWithin, own.code]
      exact lowerShape_renamed induction own _ inStep

/-- Renamed nodes are lowered to renamed nodes, or refused for the same reason. -/
theorem lower_renamed (file : String) (renamed : Node.Renamed same nodes nodes')
    (inStep : registry.InStep same registry') :
    Corresponds (Made same) (lower nodes file registry) (lower nodes' file registry') := by
  have follows : Follows same lowerExpression := by
    intro e e' registry registry' own inStep
    rw [lowerExpression, lowerExpression, own.code]
    exact lowerWithin_follows _ own inStep
  exact (lowerNodes_renamed follows renamed inStep).reportIn file

end Fragment
end ReactiveTemplate
