import ReactiveTemplate.Proofs.Component.Reach

/-!
# Marks

The attribute that marks a root, in lists of attributes that are put together.  The last mark that
is forwarded takes the place of the first one of the root; a root without any is given the name of
its component, if that owns a script.  Forwarding leaves all other nodes of an instance as they are.
-/

namespace ReactiveTemplate

/-- The text of a fixed value. -/
def AttributeValue.text? : AttributeValue → Option String
  | .fixed text => some text
  | .dynamic _ => none

namespace Node

/-- The attributes of an element or a usage. -/
def attributes : Node → List Attribute
  | element _ attributes _ _ | component _ attributes _ _ => attributes
  | _ => []

/-- An element or a usage with other attributes. -/
def withAttributes (attributes : List Attribute) : Node → Node
  | element tag _ children site => element tag attributes children site
  | component name _ children site => component name attributes children site
  | node => node

/-- The node is an element. -/
def isElement : Node → Bool
  | element .. => true
  | _ => false

/-- The root of an instance: its first element or usage at the top level. -/
def root? (nodes : List Node) : Option Node := nodes.find? isRoot

@[simp]
theorem withAttributes_attributes (node : Node) : node.withAttributes node.attributes = node := by
  cases node <;> rfl

@[simp]
theorem withAttributes_withAttributes (attributes attributes' : List Attribute) (node : Node) :
    (node.withAttributes attributes).withAttributes attributes' = node.withAttributes attributes' := by
  cases node <;> rfl

/-- Nodes that are alike stay so when they are given the same attributes. -/
theorem Alike.withAttributes {related : Expression → Expression → Prop}
    (reflexive : ∀ e, related e e) {node node' : Node} (alike : Alike related [node] [node'])
    (attributes : List Attribute) :
    Alike related [node.withAttributes attributes] [node'.withAttributes attributes] := by
  cases alike with
  | element _ children rest => exact .element (.refl reflexive attributes) children rest
  | component _ children rest => exact .component (.refl reflexive attributes) children rest
  | text rest => exact .text rest
  | expression same rest => exact .expression same rest
  | conditional same first second rest => exact .conditional same first second rest
  | optional same branch rest => exact .optional same branch rest
  | loop same body rest => exact .loop same body rest
  | doctype rest => exact .doctype rest

theorem insides_withAttributes (enter : String → Bool) (attributes : List Attribute) (node : Node) :
    insides enter (node.withAttributes attributes) = insides enter node := by
  cases node <;> rfl

end Node

namespace Component

open Node

/-! ## Marks in attributes -/

/-- The texts of the attributes that mark a root; an expression has none. -/
def marks (attributes : List Attribute) : List (Option String) :=
  (attributes.filter (·.name == ownerAttribute)).map (·.value.text?)

/-- The marks of a root that takes over others: the last of them stands for the first of its own. -/
def settle (own forwarded : List (Option String)) : List (Option String) :=
  match forwarded.getLast? with
  | none => own
  | some mark => mark :: own.tail

section

variable {registry : Registry} {definition : Definition} {attributes forwarded : List Attribute}
variable {site : Site}

theorem marks_cons (attr : Attribute) (rest : List Attribute) :
    marks (attr :: rest) =
      if attr.name = ownerAttribute then attr.value.text? :: marks rest else marks rest := by
  rw [marks, List.filter_cons]
  by_cases own : attr.name = ownerAttribute
  · simp [own, marks]
  · simp [own, marks]

theorem marks_append (first rest : List Attribute) :
    marks (first ++ rest) = marks first ++ marks rest := by
  simp [marks]

theorem marks_eq_nil :
    marks attributes = [] ↔ attributes.any (·.name == ownerAttribute) = false := by
  simp [marks]

theorem marks_alike {related : Expression → Expression → Prop} {attributes' : List Attribute}
    (alike : Attribute.Alike related attributes attributes') :
    marks attributes' = marks attributes := by
  induction alike with
  | nil => rfl
  | cons own _ induction =>
      rw [marks_cons, marks_cons, ← own.1, induction]
      have same := own.2
      generalize Attribute.value _ = value at same ⊢
      generalize Attribute.value _ = value' at same ⊢
      cases same <;> rfl

/-- An attribute that is put on a root is a new mark, or changes no mark. -/
theorem marks_forwardOne (incoming : Attribute) :
    marks (forwardOne registry incoming attributes).1 =
      if incoming.name = ownerAttribute then
        incoming.value.text? :: (marks attributes).tail
      else marks attributes := by
  have noClass : ("class" : String) ≠ ownerAttribute := by decide
  induction attributes with
  | nil => exact marks_cons incoming []
  | cons own rest induction =>
      rw [forwardOne]
      by_cases same : own.name = incoming.name
      · rw [if_pos same]
        by_cases isClass : incoming.name = "class"
        · have merged : (mergeClass registry own incoming).1.name = "class" := by
            rw [mergeClass]
            split
            · exact isClass
            · rfl
          have other : ¬ incoming.name = ownerAttribute := isClass ▸ noClass
          have merged_other : ¬ (mergeClass registry own incoming).1.name = ownerAttribute :=
            merged ▸ noClass
          rw [if_pos isClass, if_neg other, marks_cons, marks_cons, same, if_neg other,
            if_neg merged_other]
        · rw [if_neg isClass]
          by_cases mark : incoming.name = ownerAttribute
          · rw [if_pos mark, marks_cons, if_pos mark, marks_cons, same, if_pos mark, List.tail_cons]
          · rw [if_neg mark, marks_cons, if_neg mark, marks_cons, same, if_neg mark]
      · rw [if_neg same, marks_cons, induction, marks_cons]
        by_cases mark : incoming.name = ownerAttribute
        · have other : ¬ own.name = ownerAttribute := fun equal => same (equal.trans mark.symm)
          rw [if_neg other, if_neg other]
        · rw [if_neg mark, if_neg mark]

theorem marks_forwardAll :
    marks (forwardAll registry attributes forwarded).1 =
      settle (marks attributes) (marks forwarded) := by
  induction forwarded generalizing registry attributes with
  | nil => rfl
  | cons incoming rest induction =>
      rw [forwardAll, induction, marks_forwardOne, marks_cons]
      split
      · rw [settle, settle, List.getLast?_cons]
        cases (marks rest).getLast? with
        | none => rfl
        | some mark => rfl
      · rfl

/-- The marks of a root: what it has been given, or else the name of the component. -/
theorem marks_rootAttributes :
    marks (rootAttributes definition registry forwarded attributes site).1 =
      if definition.hasScript = true ∧ settle (marks attributes) (marks forwarded) = [] then
        [some definition.name]
      else settle (marks attributes) (marks forwarded) := by
  have marked : marks (forwardAll registry attributes forwarded).1 =
      settle (marks attributes) (marks forwarded) := marks_forwardAll
  rw [rootAttributes]
  generalize forwardAll registry attributes forwarded = given at marked ⊢
  obtain ⟨given, registry'⟩ := given
  dsimp only at marked ⊢
  rw [← marked]
  by_cases needed : definition.hasScript = true ∧ marks given = []
  · have unmarked := marks_eq_nil.mp needed.2
    rw [if_pos needed, needed.1, unmarked]
    rw [Bool.not_false, Bool.and_self, if_pos rfl, marks_append, needed.2]
    rfl
  · rw [if_neg needed]
    split
    · rename_i both
      rw [Bool.and_eq_true, Bool.not_eq_true'] at both
      exact (needed ⟨both.1, marks_eq_nil.mpr both.2⟩).elim
    · rfl

theorem settle_eq_nil {own forwarded : List (Option String)} :
    settle own forwarded = [] ↔ own = [] ∧ forwarded = [] := by
  rw [settle]
  split
  · rename_i none
    rw [List.getLast?_eq_none_iff] at none
    simp [none]
  · rename_i mark some
    have given : forwarded ≠ [] := by
      rintro rfl
      cases some
    simp [given]

/-- A root has a mark if it had one, or is given one, or belongs to a component with a script. -/
theorem marks_rootAttributes_ne_nil
    (marked : definition.hasScript = true ∨ marks attributes ≠ [] ∨ marks forwarded ≠ []) :
    marks (rootAttributes definition registry forwarded attributes site).1 ≠ [] := by
  rw [marks_rootAttributes]
  split
  · exact List.cons_ne_nil _ _
  · rename_i needed
    intro none
    have empty := settle_eq_nil.mp none
    rcases marked with script | own | given
    · exact needed ⟨script, none⟩
    · exact own empty.1
    · exact given empty.2

/-- A root that is given no mark has the marks that it had. -/
theorem marks_rootAttributes_kept (none : marks forwarded = [])
    (kept : marks attributes ≠ [] ∨ definition.hasScript = false) :
    marks (rootAttributes definition registry forwarded attributes site).1 = marks attributes := by
  rw [marks_rootAttributes, none, settle, List.getLast?_nil]
  refine if_neg fun needed => ?_
  rcases kept with own | scriptless
  · exact own needed.2
  · rw [scriptless] at needed
    cases needed.1

end

/-! ## Forwarding -/

section

variable {registry after : Registry} {definition : Definition} {forwarded : List Attribute}
variable {nodes result : List Node} {location : Location}

/-- Forwarding changes the attributes of the root, or nothing is forwarded and nothing changes. -/
theorem forward_root
    (ok : forward definition location forwarded registry nodes = .ok (result, after)) :
    (root? nodes = none ∧ forwarded = [] ∧ result = nodes) ∨
      ∃ front root rest registry' site,
        nodes = front ++ root :: rest ∧ root? nodes = some root ∧
        result = front ++ root.withAttributes
          (rootAttributes definition registry' forwarded root.attributes site).1 :: rest := by
  induction nodes generalizing result with
  | nil =>
      cases forwarded with
      | nil =>
          cases ok
          exact .inl ⟨rfl, rfl, rfl⟩
      | cons attr others => cases ok
  | cons node rest induction =>
      cases node with
      | element tag attributes children site | component name attributes children site =>
          rw [forward] at ok
          cases ok
          exact .inr ⟨[], _, rest, registry, site, rfl, rfl, rfl⟩
      | _ =>
          simp only [forward] at ok
          split at ok
          · rename_i rest_ok
            cases ok
            rcases induction rest_ok with ⟨none, empty, rfl⟩ |
              ⟨front, root, others, registry', site, rfl, found, rfl⟩
            · exact .inl ⟨none, empty, rfl⟩
            · exact .inr ⟨_ :: front, root, others, registry', site, rfl, found, rfl⟩
          · cases ok

end

/-- A node is found again: what is in it is the same, with the same code from the same places, and
it may have other attributes, as the root of an instance is given some. -/
def Again (node node' : Node) : Prop :=
  ∃ attributes', Alike (Traced false) [node.withAttributes attributes'] [node']

theorem Again.of_alike {node node' : Node} (alike : Alike (Traced false) [node] [node']) :
    Again node node' :=
  ⟨node.attributes, by rwa [withAttributes_attributes]⟩

theorem Again.trans {node node' node'' : Node} (first : Again node node')
    (second : Again node' node'') : Again node node'' := by
  obtain ⟨attributes', same⟩ := first
  obtain ⟨attributes'', same'⟩ := second
  have settled := same.withAttributes (Traced.refl false) attributes''
  rw [withAttributes_withAttributes] at settled
  exact ⟨attributes'', settled.trans Traced.trans same'⟩

/-- There is a usage in a node exactly if there is one in what is found again. -/
theorem Again.resolved {node node' : Node} (again : Again node node') (resolved : Resolved [node]) :
    Resolved [node'] := by
  obtain ⟨attributes', same⟩ := again
  refine same.resolved ?_
  unfold Resolved at resolved ⊢
  rw [everywhere_singleton] at resolved ⊢
  cases node <;> exact resolved

/-- A node that is found again, with other attributes perhaps: a mark is not lost; it stays the same
unless marks are overridden, and nothing changes where none is added. -/
def Remarked (overrides adds : Bool) (node node' : Node) : Prop :=
  ∃ attributes', Alike (Traced false) [node.withAttributes attributes'] [node'] ∧
    (marks node.attributes ≠ [] → marks attributes' ≠ []) ∧
    (overrides = false → marks node.attributes ≠ [] → marks attributes' = marks node.attributes) ∧
    (adds = false → marks attributes' = marks node.attributes)

theorem Remarked.again {overrides adds : Bool} {node node' : Node}
    (remarked : Remarked overrides adds node node') : Again node node' := by
  obtain ⟨attributes', same, -⟩ := remarked
  exact ⟨attributes', same⟩

/-- Nodes that are found again in nodes that are to be resolved; those further inside are as they
were. -/
structure Carried (overrides adds : Bool) (placed given : List Node) : Prop where
  inside : ∀ node ∈ reachOfList anyTag (insidesOfList anyTag placed),
    ∃ node' ∈ reachOfList anyTag given, Alike (Traced false) [node] [node']
  around : ∀ node ∈ reachOfList anyTag placed,
    ∃ node' ∈ reachOfList anyTag given, Remarked overrides adds node node'

namespace Carried

variable {overrides adds : Bool} {placed given nodes : List Node}

theorem remarked_of_alike {node node' : Node} (alike : Alike (Traced false) [node] [node']) :
    Remarked overrides adds node node' :=
  ⟨node.attributes, by rwa [withAttributes_attributes], id, fun _ _ => rfl, fun _ => rfl⟩

/-- Nodes that are alike may be among others. -/
theorem of_alike (alike : Alike (Traced false) placed nodes) (inside : nodes ⊆ given) :
    Carried overrides adds placed given where
  inside node member := by
    obtain ⟨node', found, same⟩ := alike.reach (reachOfList_insidesOfList_subset placed member)
    exact ⟨node', reachOfList_subset inside found, same⟩
  around node member := by
    obtain ⟨node', found, same⟩ := alike.reach member
    exact ⟨node', reachOfList_subset inside found, remarked_of_alike same⟩

theorem alike (carried : Carried overrides adds placed nodes)
    (alike : Alike (Traced false) nodes given) : Carried overrides adds placed given where
  inside node member := by
    obtain ⟨node', found, same⟩ := carried.inside node member
    obtain ⟨node'', found', same'⟩ := alike.reach found
    exact ⟨node'', found', same.trans Traced.trans same'⟩
  around node member := by
    obtain ⟨node', found, attributes', same, kept⟩ := carried.around node member
    obtain ⟨node'', found', same'⟩ := alike.reach found
    exact ⟨node'', found', attributes', same.trans Traced.trans same', kept⟩

/-- Forwarding leaves all nodes but the root as they are. -/
theorem forward {definition : Definition} {location : Location} {forwarded : List Attribute}
    {registry after : Registry} (overridden : overrides = false → marks forwarded = [])
    (added : adds = false → marks forwarded = [] ∧ definition.hasScript = false)
    (ok : Component.forward definition location forwarded registry placed = .ok (given, after)) :
    Carried overrides adds placed given := by
  have itself (node : Node) : Alike (Traced false) [node] [node] := .refl (Traced.refl false) _
  rcases forward_root ok with ⟨-, -, rfl⟩ | ⟨front, root, rest, registry', site, rfl, -, rfl⟩
  · have same : Alike (Traced false) given given := .refl (Traced.refl false) given
    exact .of_alike same (List.Subset.refl _)
  refine ⟨fun node member => ⟨node, ?_, itself node⟩, fun node member => ?_⟩
  · refine reachOfList_insidesOfList_subset _ ?_
    rw [insidesOfList_append, insidesOfList_cons] at member ⊢
    rwa [insides_withAttributes]
  · rw [reachOfList_append, reachOfList, reach_eq, List.mem_append, List.mem_append,
      List.mem_cons] at member
    rw [reachOfList_append, reachOfList, reach_eq, insides_withAttributes]
    rcases member with before | (rfl | within) | behind
    · exact ⟨node, List.mem_append_left _ before, remarked_of_alike (itself node)⟩
    · exact ⟨_, List.mem_append_right _ (List.mem_append_left _ List.mem_cons_self), _, itself _,
        fun marked => marks_rootAttributes_ne_nil (.inr (.inl marked)),
        fun still marked => marks_rootAttributes_kept (overridden still) (.inl marked),
        fun still => marks_rootAttributes_kept (added still).1 (.inr (added still).2)⟩
    · exact ⟨node, List.mem_append_right _ (List.mem_append_left _ (List.mem_cons_of_mem _ within)),
        remarked_of_alike (itself node)⟩
    · exact ⟨node, List.mem_append_right _ (List.mem_append_right _ behind),
        remarked_of_alike (itself node)⟩

end Carried

/-! ## Elements with a mark -/

/-- An element has a mark, and has the name as its first mark if that is asked for. -/
structure Bears (own : Bool) (name : String) (node : Node) : Prop where
  element : node.isElement = true
  marked : marks node.attributes ≠ []
  named : own = true → (marks node.attributes).head? = some (some name)

namespace Bears

variable {own : Bool} {name : String} {node node' : Node}

theorem of_marks (bears : Bears own name node) (element : node'.isElement = true)
    (same : marks node'.attributes = marks node.attributes) : Bears own name node' where
  element
  marked := same ▸ bears.marked
  named := same ▸ bears.named

theorem marks_eq_of_alike {related : Expression → Expression → Prop}
    (alike : Alike related [node] [node']) :
    node'.isElement = node.isElement ∧ marks node'.attributes = marks node.attributes := by
  cases alike with
  | element attributes | component attributes => exact ⟨rfl, marks_alike attributes⟩
  | _ => exact ⟨rfl, rfl⟩

theorem alike {related : Expression → Expression → Prop} (bears : Bears own name node)
    (alike : Alike related [node] [node']) : Bears own name node' :=
  bears.of_marks ((marks_eq_of_alike alike).1.trans bears.element) (marks_eq_of_alike alike).2

theorem remarked {overrides adds : Bool} (bears : Bears own name node)
    (remarked : Remarked overrides adds node node') (still : own = true → overrides = false) :
    Bears own name node' := by
  obtain ⟨attributes', same, marked, unchanged, -⟩ := remarked
  have element := bears.element
  cases node with
  | element tag attributes children site =>
      have settled : Bears own name (.element tag attributes' children site) :=
        ⟨rfl, marked bears.marked, fun asked =>
          (congrArg List.head? (unchanged (still asked) bears.marked)).trans (bears.named asked)⟩
      exact settled.alike same
  | _ => cases element

end Bears

end Component
end ReactiveTemplate
