import ReactiveTemplate.Proofs.Tree.Alike
import ReactiveTemplate.Proofs.Tree.Balance

/-!
# Trees at other places

A tree is displaced when only the locations in it are others.  What is done to a tree never depends
on a location, so that two runs over displaced trees issue the same ids and leave displaced trees.
-/

namespace ReactiveTemplate

/-- The registries list the same ids, and issue the same ids from now on. -/
structure Registry.SameIds (registry registry' : Registry) : Prop where
  next : registry.next = registry'.next
  ids : registry.ids = registry'.ids

namespace Registry

variable {registry registry' : Registry}

theorem SameIds.register (same : registry.SameIds registry') (kind code code' : String)
    (location location' : Location) (scope scope' : Option Scope) :
    (registry.register kind code location scope).1 =
        (registry'.register kind code' location' scope').1 ∧
      (registry.register kind code location scope).2.SameIds
        (registry'.register kind code' location' scope').2 := by
  refine ⟨?_, ?_, ?_⟩
  · rw [register_fst, register_fst, same.next]
  · rw [next_register, next_register, same.next]
  · rw [ids_register, ids_register, same.next, same.ids]

theorem SameIds.modify (same : registry.SameIds registry') (id id' : String)
    {change change' : Expression → Expression} (keeps : ∀ e, (change e).id = e.id)
    (keeps' : ∀ e, (change' e).id = e.id) :
    (registry.modify id change).SameIds (registry'.modify id' change') := by
  refine ⟨?_, ?_⟩
  · rw [next_modify, next_modify, same.next]
  · rw [ids_modify _ _ keeps, ids_modify _ _ keeps', same.ids]

theorem SameIds.remove (same : registry.SameIds registry') (id : String) :
    (registry.remove id).SameIds (registry'.remove id) := by
  refine ⟨?_, ?_⟩
  · rw [next_remove, next_remove, same.next]
  · rw [ids_remove, ids_remove, same.ids]

theorem SameIds.removeAll (same : registry.SameIds registry') (ids : List String) :
    (registry.removeAll ids).SameIds (registry'.removeAll ids) := by
  induction ids generalizing registry registry' with
  | nil => exact same
  | cons id rest induction => exact induction (same.remove id)

theorem SameIds.contains (same : registry.SameIds registry') (id : String) :
    registry.contains id = registry'.contains id := by
  have listed (registry : Registry) : registry.contains id = registry.ids.any (· == id) := by
    rw [Registry.contains, Registry.ids, List.any_map]
    rfl
  rw [listed, listed, same.ids]

end Registry

/-! ## Sites -/

/-- Expressions are the same but for their locations. -/
structure Expression.Displaced (e e' : Expression) : Prop where
  id : e.id = e'.id
  code : e.code = e'.code
  scope : e.scope = e'.scope

/-- Attributes are the same but for their locations. -/
structure Attribute.Displaced (attr attr' : Attribute) : Prop where
  name : attr.name = attr'.name
  value : attr.value.Alike Expression.Displaced attr'.value
  scope : attr.site.scope = attr'.site.scope

theorem Expression.Displaced.refl (e : Expression) : e.Displaced e := ⟨rfl, rfl, rfl⟩

theorem Attribute.Displaced.refl (attr : Attribute) : attr.Displaced attr :=
  ⟨rfl, .refl .refl _, rfl⟩

/-- Attributes are the same one by one but for their locations. -/
def Attribute.AllDisplaced : List Attribute → List Attribute → Prop :=
  List.Forall₂ Attribute.Displaced

namespace Attribute.AllDisplaced

variable {attributes attributes' : List Attribute}

theorem alike (displaced : AllDisplaced attributes attributes') :
    Attribute.Alike Expression.Displaced attributes attributes' :=
  displaced.imp fun _ _ own => ⟨own.name, own.value⟩

theorem ids_eq (displaced : AllDisplaced attributes attributes') :
    Attribute.ids attributes = Attribute.ids attributes' := by
  have one {attr attr' : Attribute} (own : attr.Displaced attr') : attr.id? = attr'.id? := by
    obtain ⟨name, value, site⟩ := attr
    obtain ⟨name', value', site'⟩ := attr'
    cases own.value with
    | fixed text => rfl
    | dynamic both => exact congrArg some both.id
  induction displaced with
  | nil => rfl
  | cons own _ induction =>
      rw [Attribute.ids, Attribute.ids] at induction ⊢
      rw [List.filterMap_cons, List.filterMap_cons, one own, induction]

/-- Whether an attribute of some name is there, or of some kind that the name decides. -/
theorem any_eq (displaced : AllDisplaced attributes attributes') (kind : String → Bool) :
    (attributes.any fun attr => kind attr.name) = attributes'.any fun attr => kind attr.name := by
  induction displaced with
  | nil => rfl
  | cons own _ induction => rw [List.any_cons, List.any_cons, own.name, induction]

end Attribute.AllDisplaced

/-! ## Nodes -/

namespace Node

/-- Nodes are the same but for their locations. -/
inductive Displaced : List Node → List Node → Prop where
  | nil : Displaced [] []
  | element {tag : String} {attributes attributes' : List Attribute} {site site' : Site}
      {children children' rest rest' : List Node} :
      Attribute.AllDisplaced attributes attributes' → site.scope = site'.scope →
      Displaced children children' → Displaced rest rest' →
      Displaced (.element tag attributes children site :: rest)
        (.element tag attributes' children' site' :: rest')
  | component {name : String} {attributes attributes' : List Attribute} {site site' : Site}
      {children children' rest rest' : List Node} :
      Attribute.AllDisplaced attributes attributes' → site.scope = site'.scope →
      Displaced children children' → Displaced rest rest' →
      Displaced (.component name attributes children site :: rest)
        (.component name attributes' children' site' :: rest')
  | text {value : String} {site site' : Site} {rest rest' : List Node} :
      site.scope = site'.scope → Displaced rest rest' →
      Displaced (.text value site :: rest) (.text value site' :: rest')
  | expression {e e' : Expression} {rest rest' : List Node} :
      e.Displaced e' → Displaced rest rest' →
      Displaced (.expression e :: rest) (.expression e' :: rest')
  | conditional {id condition : String} {site site' : Site}
      {first first' second second' rest rest' : List Node} :
      site.scope = site'.scope → Displaced first first' → Displaced second second' →
      Displaced rest rest' →
      Displaced (.conditional id condition first second site :: rest)
        (.conditional id condition first' second' site' :: rest')
  | optional {id condition : String} {site site' : Site} {branch branch' rest rest' : List Node} :
      site.scope = site'.scope → Displaced branch branch' → Displaced rest rest' →
      Displaced (.optional id condition branch site :: rest)
        (.optional id condition branch' site' :: rest')
  | loop {id source : String} {binder : LoopBinder} {site site' : Site}
      {body body' rest rest' : List Node} :
      site.scope = site'.scope → Displaced body body' → Displaced rest rest' →
      Displaced (.loop id source binder body site :: rest)
        (.loop id source binder body' site' :: rest')
  | doctype {name publicId systemId : String} {location location' : Location}
      {rest rest' : List Node} :
      Displaced rest rest' →
      Displaced (.doctype name publicId systemId location :: rest)
        (.doctype name publicId systemId location' :: rest')

namespace Displaced

variable {nodes nodes' : List Node}

theorem append {left left' right right' : List Node} (first : Displaced left left')
    (second : Displaced right right') : Displaced (left ++ right) (left' ++ right') := by
  induction first with
  | nil => exact second
  | element attributes scope children _ _ induction =>
      exact .element attributes scope children induction
  | component attributes scope children _ _ induction =>
      exact .component attributes scope children induction
  | text scope _ induction => exact .text scope induction
  | expression own _ induction => exact .expression own induction
  | conditional scope first second _ _ _ induction =>
      exact .conditional scope first second induction
  | optional scope branch _ _ induction => exact .optional scope branch induction
  | loop scope body _ _ induction => exact .loop scope body induction
  | doctype _ induction => exact .doctype induction

theorem refl : ∀ nodes : List Node, Displaced nodes nodes
  | [] => .nil
  | .element _ _ children _ :: rest =>
    .element (List.forall₂_same.mpr fun attr _ => .refl attr) rfl (refl children) (refl rest)
  | .component _ _ children _ :: rest =>
    .component (List.forall₂_same.mpr fun attr _ => .refl attr) rfl (refl children) (refl rest)
  | .text .. :: rest => .text rfl (refl rest)
  | .expression e :: rest => .expression (.refl e) (refl rest)
  | .conditional _ _ consequent alternate _ :: rest =>
    .conditional rfl (refl consequent) (refl alternate) (refl rest)
  | .optional _ _ branch _ :: rest => .optional rfl (refl branch) (refl rest)
  | .loop _ _ _ body _ :: rest => .loop rfl (refl body) (refl rest)
  | .doctype .. :: rest => .doctype (refl rest)

theorem alike (displaced : Displaced nodes nodes') :
    Alike (fun e e' => e.id = e'.id ∧ e.code = e'.code) nodes nodes' := by
  have attrs {attributes attributes' : List Attribute}
      (own : Attribute.AllDisplaced attributes attributes') :
      Attribute.Alike (fun e e' => e.id = e'.id ∧ e.code = e'.code) attributes attributes' := by
    refine own.imp fun attr attr' both => ⟨both.name, ?_⟩
    obtain ⟨name, value, site⟩ := attr
    obtain ⟨name', value', site'⟩ := attr'
    cases both.value with
    | fixed text => exact .fixed text
    | dynamic same => exact .dynamic ⟨same.id, same.code⟩
  induction displaced with
  | nil => exact .nil
  | element attributes _ _ _ below behind => exact .element (attrs attributes) below behind
  | component attributes _ _ _ below behind => exact .component (attrs attributes) below behind
  | text _ _ behind => exact .text behind
  | expression own _ behind => exact .expression ⟨own.id, own.code⟩ behind
  | conditional _ _ _ _ first second behind => exact .conditional ⟨rfl, rfl⟩ first second behind
  | optional _ _ _ below behind => exact .optional ⟨rfl, rfl⟩ below behind
  | loop _ _ _ below behind => exact .loop ⟨rfl, rfl⟩ below behind
  | doctype _ behind => exact .doctype behind

theorem idsOfList_eq (displaced : Displaced nodes nodes') : idsOfList nodes = idsOfList nodes' := by
  induction displaced with
  | nil => rfl
  | element attributes _ _ _ below behind | component attributes _ _ _ below behind =>
      simp only [idsOfList, Node.ids, attributes.ids_eq, below, behind]
  | text _ _ behind | doctype _ behind => simp only [idsOfList, Node.ids, behind]
  | expression own _ behind => simp only [idsOfList, Node.ids, own.id, behind]
  | conditional _ _ _ _ first second behind =>
      simp only [idsOfList, Node.ids, first, second, behind]
  | optional _ _ _ below behind | loop _ _ _ below behind =>
      simp only [idsOfList, Node.ids, below, behind]

theorem isEmpty_eq (displaced : Displaced nodes nodes') : nodes.isEmpty = nodes'.isEmpty := by
  cases displaced with
  | _ => rfl

/-- Blank texts are left out of both. -/
theorem filter_blank (displaced : Displaced nodes nodes') :
    Displaced (nodes.filter (!·.isBlankText)) (nodes'.filter (!·.isBlankText)) := by
  induction displaced with
  | nil => exact .nil
  | element attributes scope children _ _ behind =>
      exact .element attributes scope children behind
  | component attributes scope children _ _ behind =>
      exact .component attributes scope children behind
  | @text value _ _ _ _ scope _ behind =>
      simp only [List.filter_cons, isBlankText]
      split
      · exact .text scope behind
      · exact behind
  | expression own _ behind => exact .expression own behind
  | conditional scope first second _ _ _ behind => exact .conditional scope first second behind
  | optional scope branch _ _ behind => exact .optional scope branch behind
  | loop scope body _ _ behind => exact .loop scope body behind
  | doctype _ behind => exact .doctype behind

end Displaced
end Node

/-! ## Traversals -/

namespace Traversal

variable {σ : Type} {t t' : Traversal σ} {related : σ → σ → Prop}

/-- Two traversals do the same at every site, wherever it is. -/
structure Concordant (t t' : Traversal σ) (related : σ → σ → Prop) : Prop where
  site : ∀ {state state' site site'}, related state state' → site.scope = site'.scope →
    (t.site state site).scope = (t'.site state' site').scope
  expression : ∀ {state state' e e'}, related state state' → e.Displaced e' →
    (t.expression state e).1.Displaced (t'.expression state' e').1 ∧
      related (t.expression state e).2 (t'.expression state' e').2

theorem Concordant.attrs (concordant : Concordant t t' related)
    {attributes attributes' : List Attribute}
    (displaced : Attribute.AllDisplaced attributes attributes') {state state' : σ}
    (before : related state state') :
    Attribute.AllDisplaced (t.attrs state attributes).1 (t'.attrs state' attributes').1 ∧
      related (t.attrs state attributes).2 (t'.attrs state' attributes').2 := by
  induction displaced generalizing state state' with
  | nil => exact ⟨.nil, before⟩
  | @cons attr attr' rest rest' own _ induction =>
      obtain ⟨name, value, site⟩ := attr
      obtain ⟨name', value', site'⟩ := attr'
      obtain ⟨rfl, values, scopes⟩ := own
      have scope := concordant.site before scopes
      cases values with
      | fixed text =>
          obtain ⟨others, after⟩ := induction before
          exact ⟨.cons ⟨rfl, .fixed text, scope⟩ others, after⟩
      | dynamic both =>
          obtain ⟨visited, later⟩ := concordant.expression before both
          obtain ⟨others, after⟩ := induction later
          exact ⟨.cons ⟨rfl, .dynamic visited, scope⟩ others, after⟩

/-- Two traversals that do the same at every site do the same to displaced trees. -/
theorem Concordant.nodes (concordant : Concordant t t' related) {nodes nodes' : List Node}
    (displaced : Node.Displaced nodes nodes') {state state' : σ} (before : related state state') :
    Node.Displaced (t.nodes state nodes).1 (t'.nodes state' nodes').1 ∧
      related (t.nodes state nodes).2 (t'.nodes state' nodes').2 := by
  -- the head of a fragment is visited as an expression
  have head {state state' : σ} (id code : String) {site site' : Site}
      (before : related state state') (scope : site.scope = site'.scope) :
      (t.expression state ⟨id, code, site.location, site.scope⟩).1.Displaced
          (t'.expression state' ⟨id, code, site'.location, site'.scope⟩).1 ∧
        related (t.expression state ⟨id, code, site.location, site.scope⟩).2
          (t'.expression state' ⟨id, code, site'.location, site'.scope⟩).2 :=
    concordant.expression before ⟨rfl, rfl, scope⟩
  induction displaced generalizing state state' with
  | nil => exact ⟨.nil, before⟩
  | element attributes scope _ _ below behind =>
      obtain ⟨own, header⟩ := concordant.attrs attributes before
      obtain ⟨inner, body⟩ := below header
      obtain ⟨others, after⟩ := behind body
      exact ⟨.element own (concordant.site before scope) inner others, after⟩
  | component attributes scope _ _ below behind =>
      obtain ⟨own, header⟩ := concordant.attrs attributes before
      obtain ⟨inner, body⟩ := below header
      obtain ⟨others, after⟩ := behind body
      exact ⟨.component own (concordant.site before scope) inner others, after⟩
  | text scope _ behind =>
      obtain ⟨others, after⟩ := behind before
      exact ⟨.text (concordant.site before scope) others, after⟩
  | expression own _ behind =>
      obtain ⟨visited, later⟩ := concordant.expression before own
      obtain ⟨others, after⟩ := behind later
      exact ⟨.expression visited others, after⟩
  | conditional scope _ _ _ left right behind =>
      obtain ⟨visited, later⟩ := head _ _ before scope
      obtain ⟨first, middle⟩ := left later
      obtain ⟨second, body⟩ := right middle
      obtain ⟨others, after⟩ := behind body
      rw [Traversal.nodes, Traversal.nodes, Traversal.node, Traversal.node]
      dsimp only
      rw [visited.id, visited.code]
      exact ⟨.conditional visited.scope first second others, after⟩
  | optional scope _ _ below behind =>
      obtain ⟨visited, later⟩ := head _ _ before scope
      obtain ⟨branch, body⟩ := below later
      obtain ⟨others, after⟩ := behind body
      rw [Traversal.nodes, Traversal.nodes, Traversal.node, Traversal.node]
      dsimp only
      rw [visited.id, visited.code]
      exact ⟨.optional visited.scope branch others, after⟩
  | loop scope _ _ below behind =>
      obtain ⟨visited, later⟩ := head _ _ before scope
      obtain ⟨inner, body⟩ := below later
      obtain ⟨others, after⟩ := behind body
      rw [Traversal.nodes, Traversal.nodes, Traversal.node, Traversal.node]
      dsimp only
      rw [visited.id, visited.code]
      exact ⟨.loop visited.scope inner others, after⟩
  | doctype _ behind =>
      obtain ⟨others, after⟩ := behind before
      exact ⟨.doctype others, after⟩

end Traversal

/-- Nodes that have been made are displaced, and the registries go on with the same ids. -/
def MadeDisplaced (made made' : List Node × Registry) : Prop :=
  Node.Displaced made.1 made'.1 ∧ made.2.SameIds made'.2

namespace Node

variable {nodes nodes' : List Node} {registry registry' : Registry}

theorem relocate_displaced (location location' : Location) (displaced : Displaced nodes nodes')
    (same : registry.SameIds registry') :
    MadeDisplaced (relocate location registry nodes) (relocate location' registry' nodes') :=
  Traversal.Concordant.nodes
    { site := fun _ scope => scope
      expression := fun {_ _ e e'} same own =>
        ⟨⟨own.id, own.code, own.scope⟩, same.modify e.id e'.id (fun _ => rfl) fun _ => rfl⟩ }
    displaced same

theorem rebind_displaced (scope : Option Scope) (displaced : Displaced nodes nodes')
    (same : registry.SameIds registry') :
    MadeDisplaced (rebind scope registry nodes) (rebind scope registry' nodes') := by
  rw [rebind, rebind]
  split
  · exact ⟨displaced, same⟩
  · refine Traversal.Concordant.nodes
      { site := fun _ own => ?_
        expression := fun {_ _ e e'} same own =>
          ⟨⟨own.id, own.code, ?_⟩, same.modify e.id e'.id (fun _ => rfl) fun _ => rfl⟩ }
      displaced same
    · simp only [rebinding, own]
    · simp only [rebinding, own.scope]

theorem rekey_displaced (displaced : Displaced nodes nodes') (same : registry.SameIds registry') :
    MadeDisplaced (rekey registry nodes) (rekey registry' nodes') := by
  have concordant : rekeying.Concordant rekeying fun state state' =>
      state.1.SameIds state'.1 ∧ state.2 = state'.2 := by
    constructor
    case site =>
      rintro ⟨registry, renamed⟩ ⟨registry', renamed'⟩ site site' ⟨-, rfl⟩ own
      simp only [rekeying, own]
    case expression =>
      rintro ⟨registry, renamed⟩ ⟨registry', renamed'⟩ e e' ⟨same, rfl⟩ own
      have same : registry.SameIds registry' := same
      simp only [rekeying, own.id, own.code, own.scope]
      obtain ⟨new, after⟩ := same.register (kindOf e'.id) e'.code e'.code e.location e'.location
        (renameScope renamed e'.scope) (renameScope renamed e'.scope)
      exact ⟨⟨new, rfl, rfl⟩, after, by rw [new]⟩
  obtain ⟨copied, after⟩ := concordant.nodes displaced
    (⟨same, rfl⟩ : (registry, ([] : Renaming)).1.SameIds (registry', ([] : Renaming)).1 ∧ _)
  exact ⟨copied, after.1⟩

end Node
end ReactiveTemplate
