import ReactiveTemplate.Component.Forwarding
import ReactiveTemplate.Proofs.Tree.Coverage
import ReactiveTemplate.Proofs.Tree.Enclosure

/-!
# Attributes of a usage

Giving props their values changes the code of the instance and no scope.  Forwarding takes over the
forwarded attributes together with the instance: an attribute that is overridden loses its id, and
two classes of which one is dynamic become one new expression.
-/

namespace ReactiveTemplate

open Registry

/-- The node takes forwarded attributes. -/
def Node.isRoot : Node → Bool
  | element .. | component .. => true
  | _ => false

namespace Definition

variable {registry : Registry} {nodes : List Node}

theorem substitute_pass (values : Script.Values)
    (keeps : registry.Keeps (Node.expressionsOfList nodes)) :
    Pass Anything registry (Node.expressionsOfList nodes) (substitute values registry nodes).2
      (Node.expressionsOfList (substitute values registry nodes).1) := by
  rw [substitute]
  split
  · exact .refl keeps
  · refine Traversal.nodes_pass (fun registry e keeps => ?_) keeps
    refine .modify keeps (keeps.reachable.setCode e.id _) (fun _ => rfl) rfl trivial ?_
    intro entry code scope
    exact ⟨rfl, scope, trivial⟩

theorem substitute_covers (values : Script.Values) (registry : Registry)
    {required : List String} (covers : Node.CoversAll required nodes) :
    Node.CoversAll required (substitute values registry nodes).1 := by
  rw [substitute]
  split
  · exact covers
  · have widens : (substituting values).Widens [] :=
      { site := fun state s => by simp [substituting]
        expression := fun state e => by simp [substituting] }
    exact widens.keeps registry covers

theorem substitute_enclosed (values : Script.Values) (registry : Registry) {loops : List String}
    (enclosed : Node.EnclosedAll loops nodes) :
    Node.EnclosedAll loops (substitute values registry nodes).1 := by
  rw [substitute]
  split
  · exact enclosed
  · have confines : (substituting values).Confines [] :=
      { id := fun _ _ => rfl
        site := fun _ _ _ _ inside => inside
        expression := fun _ _ _ _ inside => inside }
    exact confines.nodes nodes registry (List.nil_subset _) enclosed

end Definition

namespace Component

variable {registry : Registry}

theorem forget_eq (registry : Registry) (value : AttributeValue) :
    forget registry value = registry.removeAll (value.expressions.map Expression.id) := by
  cases value <;> rfl

theorem forget_pass {value : AttributeValue} (keeps : registry.Keeps value.expressions) :
    Pass Grown registry value.expressions (forget registry value) [] := by
  rw [forget_eq]
  exact .removeAll keeps.reachable (List.Subset.refl _)

theorem mergeClass_pass {own incoming : Attribute}
    (keeps : registry.Keeps (own.value.expressions ++ incoming.value.expressions)) :
    Pass Grown registry (own.value.expressions ++ incoming.value.expressions)
      (mergeClass registry own incoming).2
      (mergeClass registry own incoming).1.value.expressions := by
  rw [mergeClass]
  split
  · rename_i first second first_eq second_eq
    rw [first_eq, second_eq]
    exact .refl (.nil keeps.reachable)
  · have gone := Pass.append keeps (forget_pass keeps.left) forget_pass
    exact gone.trans (.register gone.keeps.reachable _ _ _ _ _)

theorem forwardOne_pass {incoming : Attribute} {attributes : List Attribute}
    (keeps : registry.Keeps (incoming.value.expressions ++ Attribute.expressions attributes)) :
    Pass Grown registry (incoming.value.expressions ++ Attribute.expressions attributes)
      (forwardOne registry incoming attributes).2
      (Attribute.expressions (forwardOne registry incoming attributes).1) := by
  induction attributes generalizing registry with
  | nil => exact .refl keeps
  | cons own rest induction =>
      rw [Attribute.expressions_cons] at keeps ⊢
      rw [forwardOne]
      split
      · split
        · -- the two classes stand first, then the attributes that stay
          have order : (own.value.expressions ++ incoming.value.expressions ++
              Attribute.expressions rest).Perm
              (incoming.value.expressions ++
                (own.value.expressions ++ Attribute.expressions rest)) := by
            rw [List.append_assoc]
            exact List.perm_append_comm_assoc _ _ _
          have kept := keeps.perm order.symm
          exact ((mergeClass_pass kept.left).beside_left kept).of_subset order.subset
        · exact ((forget_pass keeps.right.left).beside_left keeps.right).beside_right keeps
      · have order := List.perm_append_comm_assoc own.value.expressions
          incoming.value.expressions (Attribute.expressions rest)
        have kept := keeps.perm order.symm
        exact ((induction kept.right).beside_right kept).of_subset order.subset

theorem forwardAll_pass {attributes forwarded : List Attribute}
    (keeps : registry.Keeps (Attribute.expressions forwarded ++ Attribute.expressions attributes)) :
    Pass Grown registry (Attribute.expressions forwarded ++ Attribute.expressions attributes)
      (forwardAll registry attributes forwarded).2
      (Attribute.expressions (forwardAll registry attributes forwarded).1) := by
  induction forwarded generalizing registry attributes with
  | nil => exact .refl keeps
  | cons incoming rest induction =>
      rw [Attribute.expressions_cons, List.append_assoc] at keeps ⊢
      have order := List.perm_append_comm_assoc (Attribute.expressions rest)
        incoming.value.expressions (Attribute.expressions attributes)
      have kept := keeps.perm order.symm
      have first := (forwardOne_pass kept.right).beside_right kept
      rw [forwardAll]
      exact (first.trans (induction first.keeps)).of_subset order.subset

theorem rootAttributes_pass {definition : Definition} {attributes forwarded : List Attribute}
    {site : Site}
    (keeps : registry.Keeps (Attribute.expressions forwarded ++ Attribute.expressions attributes)) :
    Pass Grown registry (Attribute.expressions forwarded ++ Attribute.expressions attributes)
      (rootAttributes definition registry forwarded attributes site).2
      (Attribute.expressions
        (rootAttributes definition registry forwarded attributes site).1) := by
  have pass := forwardAll_pass keeps
  rw [rootAttributes]
  dsimp only
  split
  · rw [Attribute.expressions_append]
    simpa [AttributeValue.expressions] using pass
  · exact pass

/-! ## Names at the root -/

/-- The names of attributes, in order. -/
def namesOf (attributes : List Attribute) : List String := attributes.map (·.name)

section

variable {incoming own : Attribute}

theorem name_mergeClass (isClass : incoming.name = "class") :
    (mergeClass registry own incoming).1.name = "class" := by
  rw [mergeClass]
  split
  · exact isClass
  · rfl

/-- What an attribute becomes on a root that has `own?` under its name. -/
def landing (registry : Registry) (incoming : Attribute) : Option Attribute → Attribute × Registry
  | none => (incoming, registry)
  | some own =>
    if incoming.name = "class" then mergeClass registry own incoming
    else (incoming, forget registry own.value)

theorem name_landing (registry : Registry) (incoming : Attribute) (own? : Option Attribute) :
    (landing registry incoming own?).1.name = incoming.name := by
  cases own? with
  | none => rfl
  | some own =>
      rw [landing]
      split
      · rename_i isClass
        rw [name_mergeClass isClass, isClass]
      · rfl

theorem forwardOne_of_eq {rest : List Attribute} (same : own.name = incoming.name) :
    forwardOne registry incoming (own :: rest) =
      ((landing registry incoming (some own)).1 :: rest,
        (landing registry incoming (some own)).2) := by
  rw [forwardOne, if_pos same, landing]
  split <;> rfl

theorem forwardOne_of_ne {rest : List Attribute} (other : own.name ≠ incoming.name) :
    forwardOne registry incoming (own :: rest) =
      (own :: (forwardOne registry incoming rest).1, (forwardOne registry incoming rest).2) := by
  rw [forwardOne, if_neg other]

theorem namesOf_forwardOne (registry : Registry) (incoming : Attribute)
    (attributes : List Attribute) :
    namesOf (forwardOne registry incoming attributes).1 =
      Scope.addNames (namesOf attributes) [incoming.name] := by
  induction attributes with
  | nil => rfl
  | cons own rest induction =>
      rw [Scope.addNames_singleton] at induction ⊢
      by_cases same : own.name = incoming.name
      · rw [forwardOne_of_eq same, if_pos (by simp [namesOf, same])]
        simp [namesOf, name_landing, same]
      · have listed : incoming.name ∈ namesOf (own :: rest) ↔ incoming.name ∈ namesOf rest := by
          simp [namesOf, Ne.symm same]
        rw [forwardOne_of_ne same]
        simp only [listed]
        rw [namesOf, List.map_cons, ← namesOf, induction]
        split <;> rfl

theorem namesOf_forwardAll (registry : Registry) (attributes forwarded : List Attribute) :
    namesOf (forwardAll registry attributes forwarded).1 =
      Scope.addNames (namesOf attributes) (namesOf forwarded) := by
  induction forwarded generalizing registry attributes with
  | nil => rfl
  | cons incoming rest induction =>
      rw [forwardAll, induction, namesOf_forwardOne, ← Scope.addNames_cons]
      rfl

end

/-- The names at the root are its own, those of forwarded attributes, and that of the mark. -/
theorem namesOf_rootAttributes {definition : Definition} {attributes forwarded : List Attribute}
    {site : Site} :
    namesOf (rootAttributes definition registry forwarded attributes site).1 ⊆
      ownerAttribute :: (namesOf attributes ++ namesOf forwarded) := by
  have names : namesOf (forwardAll registry attributes forwarded).1 ⊆
      ownerAttribute :: (namesOf attributes ++ namesOf forwarded) := by
    intro name member
    rw [namesOf_forwardAll, Scope.mem_addNames] at member
    exact List.mem_cons_of_mem _ (List.mem_append.mpr member)
  rw [rootAttributes]
  dsimp only
  split
  · rw [namesOf, List.map_append, List.append_subset]
    exact ⟨names, by simp⟩
  · exact names

/-- Forwarding passes over a node that is no root. -/
theorem forward_cons {node : Node} (other : node.isRoot = false) (definition : Definition)
    (usage : Location) (forwarded : List Attribute) (registry : Registry) (rest : List Node) :
    forward definition usage forwarded registry (node :: rest) =
      (forward definition usage forwarded registry rest).map fun made =>
        (node :: made.1, made.2) := by
  cases node with
  | element | component => cases other
  | _ =>
      simp only [forward]
      cases forward definition usage forwarded registry rest <;> rfl

/-- The attributes of the usage and the instance are taken over together. -/
theorem forward_pass {definition : Definition} {usage : Location} {forwarded : List Attribute}
    {nodes result : List Node} {after : Registry}
    (keeps : registry.Keeps (Attribute.expressions forwarded ++ Node.expressionsOfList nodes))
    (ok : forward definition usage forwarded registry nodes = .ok (result, after)) :
    Pass Grown registry (Attribute.expressions forwarded ++ Node.expressionsOfList nodes) after
      (Node.expressionsOfList result) := by
  -- the root is an element or a usage: its attributes change, and nothing else
  have root {attributes : List Attribute} {children rest : List Node} {site : Site}
      (keeps : registry.Keeps (Attribute.expressions forwarded ++
        (Attribute.expressions attributes ++ Node.expressionsOfList children ++
          Node.expressionsOfList rest))) :
      Pass Grown registry (Attribute.expressions forwarded ++ (Attribute.expressions attributes ++
          Node.expressionsOfList children ++ Node.expressionsOfList rest))
        (rootAttributes definition registry forwarded attributes site).2
        (Attribute.expressions (rootAttributes definition registry forwarded attributes site).1 ++
          Node.expressionsOfList children ++ Node.expressionsOfList rest) := by
    rw [← List.append_assoc, ← List.append_assoc] at keeps ⊢
    exact ((rootAttributes_pass keeps.left.left).beside_left keeps.left).beside_left keeps
  induction nodes generalizing result after with
  | nil =>
      cases forwarded with
      | nil =>
          cases ok
          exact .refl keeps
      | cons attr others => cases ok
  | cons node rest induction =>
      -- what stands before the root is left alone
      have skipped {rest' : List Node}
          (ok : forward definition usage forwarded registry rest = .ok (rest', after)) :
          Pass Grown registry
            (Attribute.expressions forwarded ++ Node.expressionsOfList (node :: rest)) after
            (Node.expressionsOfList (node :: rest')) := by
        rw [Node.expressionsOfList] at keeps ⊢
        have order := List.perm_append_comm_assoc node.expressions
          (Attribute.expressions forwarded) (Node.expressionsOfList rest)
        have kept := keeps.perm order.symm
        rw [Node.expressionsOfList]
        exact ((induction kept.right ok).beside_right kept).of_subset order.subset
      cases node with
      | element tag attributes children site | component name attributes children site =>
          rw [forward] at ok
          cases ok
          rw [Node.expressionsOfList, Node.expressions] at keeps ⊢
          rw [Node.expressionsOfList, Node.expressions]
          exact root keeps
      | _ =>
          simp only [forward] at ok
          split at ok
          · rename_i rest_ok
            cases ok
            exact skipped rest_ok
          · cases ok

/-- At the top level of an instance nothing is required of attributes. -/
theorem forward_covers {definition : Definition} {usage : Location} {forwarded : List Attribute}
    {nodes result : List Node} {after : Registry} (covers : Node.CoversAll [] nodes)
    (ok : forward definition usage forwarded registry nodes = .ok (result, after)) :
    Node.CoversAll [] result := by
  induction nodes generalizing result after with
  | nil =>
      cases forwarded with
      | nil =>
          cases ok
          exact covers
      | cons attr others => cases ok
  | cons node rest induction =>
      rw [Node.coversAll_cons] at covers
      cases node with
      | element tag attributes children site | component name attributes children site =>
          rw [forward] at ok
          cases ok
          rw [Node.Covers] at covers
          rw [Node.coversAll_cons, Node.Covers]
          exact ⟨⟨covers.1.1, fun _ _ => List.nil_subset _, covers.1.2.2⟩, covers.2⟩
      | _ =>
          simp only [forward] at ok
          split at ok
          · rename_i rest_ok
            cases ok
            exact Node.coversAll_cons.mpr ⟨covers.1, induction covers.2 rest_ok⟩
          · cases ok

/-! ## Loops around the root -/

section

variable {loops : List String}

theorem mergeClass_enclosed {own incoming : Attribute} (root : own.Enclosed loops)
    (given : incoming.Enclosed loops) : (mergeClass registry own incoming).1.Enclosed loops := by
  rw [mergeClass]
  split
  · exact ⟨given.1, by simp [AttributeValue.expressions]⟩
  · have merged : Scope.Inside loops (Scope.merge own.site.scope incoming.site.scope) :=
      root.1.merge given.1
    refine ⟨merged, ?_⟩
    rw [AttributeValue.expressions, List.forall_mem_singleton]
    exact merged

theorem forwardOne_enclosed {incoming : Attribute} {attributes : List Attribute}
    (given : incoming.Enclosed loops) (root : ∀ attr ∈ attributes, attr.Enclosed loops) :
    ∀ attr ∈ (forwardOne registry incoming attributes).1, attr.Enclosed loops := by
  induction attributes generalizing registry with
  | nil =>
      rw [forwardOne, List.forall_mem_singleton]
      exact given
  | cons own rest induction =>
      rw [List.forall_mem_cons] at root
      rw [forwardOne]
      split
      · split
        · rw [List.forall_mem_cons]
          exact ⟨mergeClass_enclosed root.1 given, root.2⟩
        · rw [List.forall_mem_cons]
          exact ⟨given, root.2⟩
      · rw [List.forall_mem_cons]
        exact ⟨root.1, induction root.2⟩

theorem rootAttributes_enclosed {definition : Definition} {attributes forwarded : List Attribute}
    {site : Site} (inside : Scope.Inside loops site.scope)
    (given : ∀ attr ∈ forwarded, attr.Enclosed loops)
    (root : ∀ attr ∈ attributes, attr.Enclosed loops) :
    ∀ attr ∈ (rootAttributes definition registry forwarded attributes site).1,
      attr.Enclosed loops := by
  have all : ∀ attr ∈ (forwardAll registry attributes forwarded).1, attr.Enclosed loops := by
    induction forwarded generalizing registry attributes with
    | nil => exact root
    | cons incoming rest induction =>
        rw [List.forall_mem_cons] at given
        exact induction given.2 (forwardOne_enclosed given.1 root)
  rw [rootAttributes]
  dsimp only
  split
  · rw [List.forall_mem_append, List.forall_mem_singleton]
    exact ⟨all, inside, by simp [AttributeValue.expressions]⟩
  · exact all

/-- The root takes attributes that name loops around it. -/
theorem forward_enclosed {definition : Definition} {usage : Location} {forwarded : List Attribute}
    {nodes result : List Node} {after : Registry}
    (given : ∀ attr ∈ forwarded, attr.Enclosed loops) (enclosed : Node.EnclosedAll loops nodes)
    (ok : forward definition usage forwarded registry nodes = .ok (result, after)) :
    Node.EnclosedAll loops result := by
  induction nodes generalizing result after with
  | nil =>
      cases forwarded with
      | nil =>
          cases ok
          exact enclosed
      | cons attr others => cases ok
  | cons node rest induction =>
      rw [Node.enclosedAll_cons] at enclosed
      cases node with
      | element tag attributes children site | component name attributes children site =>
          rw [forward] at ok
          cases ok
          rw [Node.Enclosed] at enclosed
          rw [Node.enclosedAll_cons, Node.Enclosed]
          exact ⟨⟨enclosed.1.1, rootAttributes_enclosed enclosed.1.1 given enclosed.1.2.1,
            enclosed.1.2.2⟩, enclosed.2⟩
      | _ =>
          simp only [forward] at ok
          split at ok
          · rename_i rest_ok
            cases ok
            exact Node.enclosedAll_cons.mpr ⟨enclosed.1, induction enclosed.2 rest_ok⟩
          · cases ok

end

end Component
end ReactiveTemplate
