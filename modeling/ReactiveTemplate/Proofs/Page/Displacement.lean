import ReactiveTemplate.Page.Compile
import ReactiveTemplate.Proofs.Component.Displacement
import ReactiveTemplate.Proofs.Page.Pieces

/-!
# Pages at other places

Main statement: two pages whose templates are displaced are written with the same markup, or both
are refused.  Locations decide which report is given, and the order of the bindings, and nothing
else.
-/

namespace ReactiveTemplate
namespace Page

variable {registry registry' : Registry} {nodes nodes' : List Node}

/-! ## The check -/

/-- Terms list the same ids and expect the same variables. -/
structure Terms.Level (terms terms' : Terms) : Prop where
  registry : terms.registry.SameIds terms'.registry
  expectations : terms.expectations = terms'.expectations

section Checks

variable {terms terms' : Terms} {required seen : List String} {location location' : Location}

theorem checkScope_concurs (scope : Option Scope) (required : List String)
    (location location' : Location) :
    Concurs (fun _ _ => True) (checkScope scope required location)
      (checkScope scope required location') := by
  rw [checkScope, checkScope]
  split
  · exact .error _ _
  · exact .ok trivial

theorem checkExpectation_concurs (level : terms.Level terms') (id : String)
    (scope : Option Scope) (location location' : Location) :
    Concurs (fun _ _ => True) (checkExpectation terms id scope location)
      (checkExpectation terms' id scope location') := by
  rw [checkExpectation, checkExpectation, level.expectations]
  split
  · exact checkScope_concurs scope _ location location'
  · exact .ok trivial

theorem checkRegistered_concurs (level : terms.Level terms') (seen : List String) (id : String)
    (location location' : Location) :
    Concurs (· = ·) (checkRegistered terms seen id location)
      (checkRegistered terms' seen id location') := by
  rw [checkRegistered, checkRegistered, level.registry.contains]
  split
  · exact .error _ _
  · split
    · exact .error _ _
    · exact .ok rfl

theorem checkPlain_concurs (code : String) (location location' : Location) :
    Concurs (fun _ _ => True) (checkPlain code location) (checkPlain code location') := by
  rw [checkPlain, checkPlain]
  split
  · exact .ok trivial
  · exact .error _ _
  · exact .error _ _

theorem checkElement_concurs {tag : String} {attributes attributes' : List Attribute}
    (displaced : Attribute.AllDisplaced attributes attributes') (location location' : Location) :
    Concurs (fun _ _ => True) (checkElement tag attributes location)
      (checkElement tag attributes' location') := by
  have slot : (Attribute.find? attributes "slot").isSome =
      (Attribute.find? attributes' "slot").isSome := by
    have any_eq := displaced.any_eq (· == "slot")
    rwa [← List.isSome_find?, ← List.isSome_find?] at any_eq
  rw [checkElement, checkElement, displaced.any_eq selectsSlot]
  generalize Attribute.find? attributes "slot" = found at slot
  generalize Attribute.find? attributes' "slot" = found' at slot
  cases found with
  | some attr =>
      cases found' with
      | some attr' => exact .error _ _
      | none => cases slot
  | none =>
      cases found' with
      | some attr' => cases slot
      | none =>
          dsimp only
          split
          · exact .error _ _
          · exact .ok trivial

theorem checkAttributes_concurs (level : terms.Level terms') (required seen : List String)
    {attributes attributes' : List Attribute}
    (displaced : Attribute.AllDisplaced attributes attributes') :
    Concurs (· = ·) (checkAttributes terms required seen attributes)
      (checkAttributes terms' required seen attributes') := by
  induction displaced generalizing seen with
  | nil => exact .ok rfl
  | @cons attr attr' rest rest' own _ induction =>
      obtain ⟨name, value, site⟩ := attr
      obtain ⟨name', value', site'⟩ := attr'
      obtain ⟨rfl, values, scopes⟩ := own
      rw [checkAttributes, checkAttributes]
      cases values with
      | fixed text => exact induction seen
      | dynamic both =>
          simp only [both.id, both.scope]
          refine (checkRegistered_concurs level seen _ _ _).bind ?_
          rintro seen _ rfl
          refine (checkScope_concurs _ required _ _).bind fun _ _ _ => ?_
          refine (checkExpectation_concurs level _ _ _ _).bind fun _ _ _ => ?_
          exact induction seen

theorem checkHead_concurs (level : terms.Level terms') (required seen : List String)
    (id : String) {site site' : Site} (scope : site.scope = site'.scope) :
    Concurs (· = ·) (checkHead terms required seen id site)
      (checkHead terms' required seen id site') := by
  rw [checkHead, checkHead, scope]
  refine (checkScope_concurs _ required _ _).bind fun _ _ _ => ?_
  refine (checkRegistered_concurs level seen id _ _).bind ?_
  rintro seen _ rfl
  refine (checkExpectation_concurs level id _ _ _).bind fun _ _ _ => ?_
  exact .ok rfl

private theorem checkNodes_cons {node node' : Node} {rest rest' : List Node}
    (own : Concurs (· = ·) (checkNode terms required seen node)
      (checkNode terms' required seen node'))
    (behind : ∀ required seen, Concurs (· = ·) (checkNodes terms required seen rest)
      (checkNodes terms' required seen rest')) :
    Concurs (· = ·) (checkNodes terms required seen (node :: rest))
      (checkNodes terms' required seen (node' :: rest')) := by
  rw [checkNodes, checkNodes]
  refine own.bind ?_
  rintro seen _ rfl
  exact behind required seen

theorem checkNodes_concurs (level : terms.Level terms') (required seen : List String)
    (displaced : Node.Displaced nodes nodes') :
    Concurs (· = ·) (checkNodes terms required seen nodes)
      (checkNodes terms' required seen nodes') := by
  induction displaced generalizing required seen with
  | nil => exact .ok rfl
  | element attributes scope _ _ below behind =>
      refine checkNodes_cons ?_ behind
      rw [checkNode, checkNode, scope]
      refine (checkScope_concurs _ required _ _).bind fun _ _ _ => ?_
      refine (checkElement_concurs attributes _ _).bind fun _ _ _ => ?_
      refine (checkAttributes_concurs level required seen attributes).bind ?_
      rintro seen _ rfl
      exact below required seen
  | component _ _ _ _ _ _ => exact .error _ _
  | text scope _ behind =>
      refine checkNodes_cons ?_ behind
      rw [checkNode, checkNode, scope]
      refine (checkScope_concurs _ required _ _).bind fun _ _ _ => ?_
      exact .ok rfl
  | expression own _ behind =>
      refine checkNodes_cons ?_ behind
      rw [checkNode, checkNode, own.id, own.code]
      refine (checkHead_concurs level required seen _ own.scope).bind ?_
      rintro seen _ rfl
      refine (checkPlain_concurs _ _ _).bind fun _ _ _ => ?_
      exact .ok rfl
  | conditional scope _ _ _ left right behind =>
      refine checkNodes_cons ?_ behind
      rw [checkNode, checkNode]
      refine (checkHead_concurs level required seen _ scope).bind ?_
      rintro seen _ rfl
      refine (left required seen).bind ?_
      rintro seen _ rfl
      exact right required seen
  | optional scope _ _ below behind =>
      refine checkNodes_cons ?_ behind
      rw [checkNode, checkNode]
      refine (checkHead_concurs level required seen _ scope).bind ?_
      rintro seen _ rfl
      exact below required seen
  | loop scope _ _ below behind =>
      refine checkNodes_cons ?_ behind
      rw [checkNode, checkNode]
      refine (checkHead_concurs level required seen _ scope).bind ?_
      rintro seen _ rfl
      exact below _ seen
  | doctype _ behind =>
      rw [checkNodes, checkNodes, checkNode, checkNode]
      exact behind required seen

theorem check_concurs (same : registry.SameIds registry')
    (displaced : Node.Displaced nodes nodes') (expectations : List (String × List String))
    (file : String) :
    Concurs (fun _ _ => True) (check nodes registry expectations file)
      (check nodes' registry' expectations file) := by
  have level : Terms.Level ⟨registry, expectations⟩ ⟨registry', expectations⟩ := ⟨same, rfl⟩
  rcases ((checkNodes_concurs level [] [] displaced).reportIn file).error_or_ok with
    ⟨fault, fault', left, right⟩ | ⟨seen, seen', both, left, right⟩
  · rw [check, check, left, right]
    exact .error _ _
  · rw [check, check, left, right]
    exact .ok trivial

end Checks

/-! ## The markup -/

theorem ofAttribute_displaced {attr attr' : Attribute} (displaced : attr.Displaced attr') :
    Field.ofAttribute attr = Field.ofAttribute attr' := by
  obtain ⟨name, value, site⟩ := attr
  obtain ⟨name', value', site'⟩ := attr'
  obtain ⟨rfl, values, scopes⟩ := displaced
  cases values with
  | fixed text => rfl
  | @dynamic e e' both =>
      rw [Field.ofAttribute, Field.ofAttribute, formOf, formOf]
      cases eventName? name with
      | none => simp only [both.id]
      | some event =>
          by_cases named : isName e'.code.toList = true
          · simp only [both.code, if_pos named]
          · simp only [both.code, if_neg named, both.id]

theorem ofAttributes_displaced {attributes attributes' : List Attribute}
    (displaced : Attribute.AllDisplaced attributes attributes') :
    attributes.map Field.ofAttribute = attributes'.map Field.ofAttribute := by
  induction displaced with
  | nil => rfl
  | cons own _ induction => rw [List.map_cons, List.map_cons, ofAttribute_displaced own, induction]

/-- Displaced trees have the same pieces, as markup and where text is no markup. -/
theorem nodesPieces_displaced (displaced : Node.Displaced nodes nodes') :
    nodesPieces nodes = nodesPieces nodes' ∧ rawPieces nodes = rawPieces nodes' := by
  -- nodes other than texts are written in the same way in both forms
  have plain {node node' : Node} {rest rest' : List Node}
      (raw : rawPieces (node :: rest) = nodePieces node ++ rawPieces rest)
      (raw' : rawPieces (node' :: rest') = nodePieces node' ++ rawPieces rest')
      (own : nodePieces node = nodePieces node')
      (behind : nodesPieces rest = nodesPieces rest' ∧ rawPieces rest = rawPieces rest') :
      nodesPieces (node :: rest) = nodesPieces (node' :: rest') ∧
        rawPieces (node :: rest) = rawPieces (node' :: rest') := by
    rw [nodesPieces, nodesPieces, raw, raw', own, behind.1, behind.2]
    exact ⟨rfl, rfl⟩
  induction displaced with
  | nil => exact ⟨rfl, rfl⟩
  | element attributes _ _ _ below behind =>
      refine plain rfl rfl ?_ behind
      rw [nodePieces, nodePieces, ofAttributes_displaced attributes, below.1, below.2]
  | component _ _ _ _ _ behind =>
      refine plain rfl rfl ?_ behind
      rw [nodePieces, nodePieces]
  | text _ _ behind =>
      rw [nodesPieces, nodesPieces, rawPieces, rawPieces, nodePieces, nodePieces, behind.1,
        behind.2]
      exact ⟨rfl, rfl⟩
  | expression own _ behind =>
      refine plain rfl rfl ?_ behind
      rw [nodePieces, nodePieces, own.id]
  | conditional _ _ _ _ left right behind =>
      refine plain rfl rfl ?_ behind
      rw [nodePieces, nodePieces, left.1, right.1]
  | optional _ _ _ below behind | loop _ _ _ below behind =>
      refine plain rfl rfl ?_ behind
      rw [nodePieces, nodePieces, below.1]
  | doctype _ behind =>
      refine plain rfl rfl ?_ behind
      rw [nodePieces, nodePieces]

/-! ## Pages -/

/-- Pages whose templates are displaced have the same markup, or are refused both. -/
theorem compile_displaced {source source' file : String} (library : Library)
    (parsed : Concurs
      (fun read read' => Node.Displaced read.1.nodes read'.1.nodes ∧ read.2.SameIds read'.2)
      (Template.parse source file {}) (Template.parse source' file {})) :
    Concurs (fun page page' => page.html = page'.html) (compile source file library)
      (compile source' file library) := by
  unfold compile
  refine parsed.bind fun read read' templates => ?_
  refine (Fragment.lower_displaced file templates.1 templates.2).bind fun low low' lowered => ?_
  refine (Component.resolve_displaced library file lowered.1 lowered.2).bind
    fun resolved resolved' both => ?_
  dsimp only
  rw [both.2.1]
  refine (check_concurs both.2.2 both.1 _ file).bind fun _ _ _ => ?_
  refine .ok ?_
  show String.ofList (nodesHtml resolved.1.nodes) = String.ofList (nodesHtml resolved'.1.nodes)
  rw [nodesHtml_eq, nodesHtml_eq, (nodesPieces_displaced both.1).1]

end Page
end ReactiveTemplate
