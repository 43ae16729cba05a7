import ReactiveTemplate.Proofs.Tree.Alike
import ReactiveTemplate.Proofs.Tree.Enclosure

/-!
# Trees with other ids

Two trees are renamed when they are the same but for their ids and the loops that their scopes name,
which stand for each other.  The registries of two runs are in step when the ids that they issue
next stand for each other.  Every traversal then leaves renamed trees and registries in step: what
it does depends on ids only as far as it looks up new names for them, and for that the ids have to
stand for each other one to one.
-/

namespace ReactiveTemplate

variable {same same' given : String → String → Prop}

/-! ## Ids -/

/-- Ids stand for each other one to one and are of the same kind. -/
structure OneToOne (same : String → String → Prop) : Prop where
  /-- An id stands for one id only. -/
  right : ∀ {id id' id''}, same id id' → same id id'' → id' = id''
  /-- An id is stood for by one id only. -/
  left : ∀ {id id' id''}, same id id'' → same id' id'' → id = id'
  /-- Kinds are kept. -/
  kind : ∀ {id id'}, same id id' → Node.kindOf id = Node.kindOf id'

theorem OneToOne.eq : OneToOne (· = ·) where
  right first second := first.symm.trans second
  left first second := first.trans second.symm
  kind same := congrArg Node.kindOf same

namespace Registry

/-- The ids that two registries issue from now on stand for each other. -/
def InStep (same : String → String → Prop) (registry registry' : Registry) : Prop :=
  ∀ kind ahead, same (idOf kind (registry.next + ahead)) (idOf kind (registry'.next + ahead))

variable {registry registry' : Registry}

theorem InStep.register (inStep : registry.InStep same registry') (kind code : String)
    (location : Location) (scope scope' : Option Scope) :
    same (registry.register kind code location scope).1
        (registry'.register kind code location scope').1 ∧
      (registry.register kind code location scope).2.InStep same
        (registry'.register kind code location scope').2 := by
  refine ⟨inStep kind 0, fun kind ahead => ?_⟩
  rw [next_register, next_register, Nat.add_right_comm, Nat.add_right_comm registry'.next]
  exact inStep kind (ahead + 1)

theorem InStep.removeAll (inStep : registry.InStep same registry') (ids ids' : List String) :
    (registry.removeAll ids).InStep same (registry'.removeAll ids') := by
  intro kind ahead
  rw [next_removeAll, next_removeAll]
  exact inStep kind ahead

end Registry

@[simp]
theorem Node.kindOf_idOf (kind : String) (number : Nat) :
    kindOf (Registry.idOf kind number) = kind := by
  simp [kindOf, Registry.dropWhile_reverse_idOf]

/-- Ids stand for each other as before, and so do the ids that two registries issue next. -/
def Onward (registry registry' : Registry) (same : String → String → Prop) (id id' : String) :
    Prop :=
  same id id' ∨ ∃ kind ahead, id = Registry.idOf kind (registry.next + ahead) ∧
    id' = Registry.idOf kind (registry'.next + ahead)

theorem inStep_onward (registry registry' : Registry) :
    registry.InStep (Onward registry registry' same) registry' :=
  fun kind ahead => .inr ⟨kind, ahead, rfl, rfl⟩

/-- Ids that have been issued are different from all that are issued next. -/
theorem OneToOne.onward {registry registry' : Registry} (one : OneToOne same)
    (issued : ∀ id id', same id id' → registry.Issued id ∧ registry'.Issued id') :
    OneToOne (Onward registry registry' same) where
  right := by
    rintro id id' id'' (old | ⟨kind, ahead, rfl, rfl⟩) (old' | ⟨kind', ahead', equal, rfl⟩)
    · exact one.right old old'
    · exact (registry.not_issued_ahead _ _ (equal ▸ (issued _ _ old).1)).elim
    · exact (registry.not_issued_ahead _ _ (issued _ _ old').1).elim
    · have kinds := congrArg Node.kindOf equal
      have numbers := Registry.number_eq_of_idOf_eq equal
      simp only [Node.kindOf_idOf] at kinds
      rw [kinds, Nat.add_left_cancel numbers]
  left := by
    rintro id id' id'' (old | ⟨kind, ahead, rfl, rfl⟩) (old' | ⟨kind', ahead', rfl, equal⟩)
    · exact one.left old old'
    · exact (registry'.not_issued_ahead _ _ (equal ▸ (issued _ _ old).2)).elim
    · exact (registry'.not_issued_ahead _ _ (issued _ _ old').2).elim
    · have kinds := congrArg Node.kindOf equal
      have numbers := Registry.number_eq_of_idOf_eq equal
      simp only [Node.kindOf_idOf] at kinds
      rw [kinds, Nat.add_left_cancel numbers]
  kind := by
    rintro id id' (old | ⟨kind, ahead, rfl, rfl⟩)
    · exact one.kind old
    · rw [Node.kindOf_idOf, Node.kindOf_idOf]

/-! ## Sites -/

namespace Scope

/-- Scopes bind the same variables, and the loops that they name stand for each other. -/
def Renamed (same : String → String → Prop) : Option Scope → Option Scope → Prop :=
  Option.Rel fun scope scope' =>
    scope.bound = scope'.bound ∧ Option.Rel same scope.loop scope'.loop

variable {scope scope' outer outer' : Option Scope}

theorem Renamed.names_eq (renamed : Renamed same scope scope') : names scope = names scope' := by
  cases renamed with
  | some both => exact both.1
  | none => rfl

theorem Renamed.isNone_eq (renamed : Renamed same scope scope') :
    scope.isNone = scope'.isNone := by
  cases renamed with
  | some both => rfl
  | none => rfl

theorem Renamed.mono (renamed : Renamed same scope scope')
    (implied : ∀ id id', same id id' → same' id id') : Renamed same' scope scope' := by
  cases renamed with
  | @some scope scope' both =>
      obtain ⟨bound, loop⟩ := scope
      obtain ⟨bound', loop'⟩ := scope'
      obtain ⟨rfl, loops⟩ := both
      refine .some ⟨rfl, ?_⟩
      cases loops with
      | some named => exact .some (implied _ _ named)
      | none => exact .none
  | none => exact .none

theorem Renamed.merge (own : Renamed same scope scope') (around : Renamed same outer outer') :
    Renamed same (Scope.merge scope outer) (Scope.merge scope' outer') := by
  cases own with
  | none => exact around
  | @some scope scope' both =>
      cases around with
      | none => exact .some both
      | @some outer outer' both' =>
          obtain ⟨bound, loop⟩ := scope
          obtain ⟨bound', loop'⟩ := scope'
          obtain ⟨rfl, loops⟩ := both
          refine .some ⟨?_, ?_⟩
          · simp only [widen, both'.1]
          · cases loops with
            | some named => exact .some named
            | none => exact both'.2

theorem Renamed.insideLoop {id id' : String} (around : Renamed same outer outer')
    (own : same id id') (added : List String) :
    Renamed same (some (insideLoop outer id added)) (some (insideLoop outer' id' added)) := by
  refine .some ⟨?_, .some own⟩
  simp only [Scope.insideLoop, around.names_eq]

theorem Renamed.refl (reflexive : ∀ id, same id id) (scope : Option Scope) :
    Renamed same scope scope := by
  cases scope with
  | none => exact .none
  | some scope =>
      refine .some ⟨rfl, ?_⟩
      cases scope.loop with
      | none => exact .none
      | some id => exact .some (reflexive id)

end Scope

/-- Sites are at the same place, in scopes that are renamed. -/
structure Site.Renamed (same : String → String → Prop) (site site' : Site) : Prop where
  location : site.location = site'.location
  scope : Scope.Renamed same site.scope site'.scope

/-- Expressions are the same code at the same place, under ids that stand for each other. -/
structure Expression.Renamed (same : String → String → Prop) (e e' : Expression) : Prop where
  id : same e.id e'.id
  code : e.code = e'.code
  location : e.location = e'.location
  scope : Scope.Renamed same e.scope e'.scope

/-- Attributes have the same name, the same text or renamed expressions, and renamed sites. -/
structure Attribute.Renamed (same : String → String → Prop) (attr attr' : Attribute) : Prop where
  name : attr.name = attr'.name
  value : attr.value.Alike (Expression.Renamed same) attr'.value
  site : attr.site.Renamed same attr'.site

theorem Site.Renamed.mono {site site' : Site} (renamed : site.Renamed same site')
    (implied : ∀ id id', same id id' → same' id id') : site.Renamed same' site' :=
  ⟨renamed.location, renamed.scope.mono implied⟩

theorem Expression.Renamed.mono {e e' : Expression} (renamed : e.Renamed same e')
    (implied : ∀ id id', same id id' → same' id id') : e.Renamed same' e' :=
  ⟨implied _ _ renamed.id, renamed.code, renamed.location, renamed.scope.mono implied⟩

theorem Attribute.Renamed.mono {attr attr' : Attribute} (renamed : attr.Renamed same attr')
    (implied : ∀ id id', same id id' → same' id id') : attr.Renamed same' attr' := by
  obtain ⟨name, value, site⟩ := attr
  obtain ⟨name', value', site'⟩ := attr'
  obtain ⟨rfl, values, sites⟩ := renamed
  refine ⟨rfl, ?_, sites.mono implied⟩
  cases values with
  | fixed text => exact .fixed text
  | dynamic own => exact .dynamic (own.mono implied)

theorem Site.Renamed.refl (reflexive : ∀ id, same id id) (site : Site) : site.Renamed same site :=
  ⟨rfl, .refl reflexive _⟩

theorem Expression.Renamed.refl (reflexive : ∀ id, same id id) (e : Expression) :
    e.Renamed same e := ⟨reflexive _, rfl, rfl, .refl reflexive _⟩

theorem Attribute.Renamed.refl (reflexive : ∀ id, same id id) (attr : Attribute) :
    attr.Renamed same attr := ⟨rfl, .refl (.refl reflexive) _, .refl reflexive _⟩

/-! ## Nodes -/

namespace Node

/-- Nodes are the same but for their ids and the loops that they name. -/
inductive Renamed (same : String → String → Prop) : List Node → List Node → Prop where
  | nil : Renamed same [] []
  | element {tag : String} {attributes attributes' : List Attribute} {site site' : Site}
      {children children' rest rest' : List Node} :
      List.Forall₂ (Attribute.Renamed same) attributes attributes' → site.Renamed same site' →
      Renamed same children children' → Renamed same rest rest' →
      Renamed same (.element tag attributes children site :: rest)
        (.element tag attributes' children' site' :: rest')
  | component {name : String} {attributes attributes' : List Attribute} {site site' : Site}
      {children children' rest rest' : List Node} :
      List.Forall₂ (Attribute.Renamed same) attributes attributes' → site.Renamed same site' →
      Renamed same children children' → Renamed same rest rest' →
      Renamed same (.component name attributes children site :: rest)
        (.component name attributes' children' site' :: rest')
  | text {value : String} {site site' : Site} {rest rest' : List Node} :
      site.Renamed same site' → Renamed same rest rest' →
      Renamed same (.text value site :: rest) (.text value site' :: rest')
  | expression {e e' : Expression} {rest rest' : List Node} :
      e.Renamed same e' → Renamed same rest rest' →
      Renamed same (.expression e :: rest) (.expression e' :: rest')
  | conditional {id id' condition condition' : String} {site site' : Site}
      {first first' second second' rest rest' : List Node} :
      Expression.Renamed same ⟨id, condition, site.location, site.scope⟩
        ⟨id', condition', site'.location, site'.scope⟩ →
      Renamed same first first' → Renamed same second second' → Renamed same rest rest' →
      Renamed same (.conditional id condition first second site :: rest)
        (.conditional id' condition' first' second' site' :: rest')
  | optional {id id' condition condition' : String} {site site' : Site}
      {branch branch' rest rest' : List Node} :
      Expression.Renamed same ⟨id, condition, site.location, site.scope⟩
        ⟨id', condition', site'.location, site'.scope⟩ →
      Renamed same branch branch' → Renamed same rest rest' →
      Renamed same (.optional id condition branch site :: rest)
        (.optional id' condition' branch' site' :: rest')
  | loop {id id' source source' : String} {binder : LoopBinder} {site site' : Site}
      {body body' rest rest' : List Node} :
      Expression.Renamed same ⟨id, source, site.location, site.scope⟩
        ⟨id', source', site'.location, site'.scope⟩ →
      Renamed same body body' → Renamed same rest rest' →
      Renamed same (.loop id source binder body site :: rest)
        (.loop id' source' binder body' site' :: rest')
  | doctype {name publicId systemId : String} {location : Location} {rest rest' : List Node} :
      Renamed same rest rest' →
      Renamed same (.doctype name publicId systemId location :: rest)
        (.doctype name publicId systemId location :: rest')

variable {nodes nodes' : List Node}

theorem Renamed.append {left left' right right' : List Node} (first : Renamed same left left')
    (second : Renamed same right right') : Renamed same (left ++ right) (left' ++ right') := by
  induction first with
  | nil => exact second
  | element attributes site children _ _ induction =>
      exact .element attributes site children induction
  | component attributes site children _ _ induction =>
      exact .component attributes site children induction
  | text site _ induction => exact .text site induction
  | expression own _ induction => exact .expression own induction
  | conditional own first second _ _ _ induction => exact .conditional own first second induction
  | optional own branch _ _ induction => exact .optional own branch induction
  | loop own body _ _ induction => exact .loop own body induction
  | doctype _ induction => exact .doctype induction

theorem Renamed.mono (renamed : Renamed same nodes nodes')
    (implied : ∀ id id', same id id' → same' id id') : Renamed same' nodes nodes' := by
  have attrs {attributes attributes' : List Attribute}
      (own : List.Forall₂ (Attribute.Renamed same) attributes attributes') :
      List.Forall₂ (Attribute.Renamed same') attributes attributes' :=
    own.imp fun _ _ attr => attr.mono implied
  induction renamed with
  | nil => exact .nil
  | element attributes site _ _ below behind =>
      exact .element (attrs attributes) (site.mono implied) below behind
  | component attributes site _ _ below behind =>
      exact .component (attrs attributes) (site.mono implied) below behind
  | text site _ behind => exact .text (site.mono implied) behind
  | expression own _ behind => exact .expression (own.mono implied) behind
  | conditional own _ _ _ first second behind =>
      exact .conditional (own.mono implied) first second behind
  | optional own _ _ below behind => exact .optional (own.mono implied) below behind
  | loop own _ _ below behind => exact .loop (own.mono implied) below behind
  | doctype _ behind => exact .doctype behind

theorem Renamed.refl (reflexive : ∀ id, same id id) :
    ∀ nodes : List Node, Renamed same nodes nodes
  | [] => .nil
  | .element _ attributes children _ :: rest =>
    .element (List.forall₂_same.mpr fun attr _ => .refl reflexive attr) (.refl reflexive _)
      (refl reflexive children) (refl reflexive rest)
  | .component _ attributes children _ :: rest =>
    .component (List.forall₂_same.mpr fun attr _ => .refl reflexive attr) (.refl reflexive _)
      (refl reflexive children) (refl reflexive rest)
  | .text .. :: rest => .text (.refl reflexive _) (refl reflexive rest)
  | .expression e :: rest => .expression (.refl reflexive e) (refl reflexive rest)
  | .conditional _ _ consequent alternate _ :: rest =>
    .conditional (.refl reflexive _) (refl reflexive consequent) (refl reflexive alternate)
      (refl reflexive rest)
  | .optional _ _ branch _ :: rest =>
    .optional (.refl reflexive _) (refl reflexive branch) (refl reflexive rest)
  | .loop _ _ _ body _ :: rest =>
    .loop (.refl reflexive _) (refl reflexive body) (refl reflexive rest)
  | .doctype .. :: rest => .doctype (refl reflexive rest)

theorem Renamed.isEmpty_eq (renamed : Renamed same nodes nodes') :
    nodes.isEmpty = nodes'.isEmpty := by
  cases renamed with
  | _ => rfl

theorem Renamed.alike (renamed : Renamed same nodes nodes') :
    Alike (Expression.Renamed same) nodes nodes' := by
  have attrs {attributes attributes' : List Attribute}
      (own : List.Forall₂ (Attribute.Renamed same) attributes attributes') :
      Attribute.Alike (Expression.Renamed same) attributes attributes' :=
    own.imp fun _ _ attr => ⟨attr.name, attr.value⟩
  induction renamed with
  | nil => exact .nil
  | element attributes _ _ _ below behind => exact .element (attrs attributes) below behind
  | component attributes _ _ _ below behind => exact .component (attrs attributes) below behind
  | text _ _ behind => exact .text behind
  | expression own _ behind => exact .expression own behind
  | conditional own _ _ _ first second behind => exact .conditional own first second behind
  | optional own _ _ below behind => exact .optional own below behind
  | loop own _ _ below behind => exact .loop own below behind
  | doctype _ behind => exact .doctype behind

end Node

/-! ## Traversals -/

namespace Traversal

variable {σ : Type} {t t' : Traversal σ} {related : List String → σ → σ → Prop}

/-- Two traversals of renamed trees leave renamed trees at every site, where the loops around the
site are known.  Once an expression has been visited, its id may be the name of a loop. -/
structure Parallel (t t' : Traversal σ) (given same : String → String → Prop)
    (related : List String → σ → σ → Prop) : Prop where
  site : ∀ {loops state state' site site'}, related loops state state' →
    Scope.Inside loops site.scope → site.Renamed given site' →
    (t.site state site).Renamed same (t'.site state' site')
  expression : ∀ {loops state state' e e'}, related loops state state' →
    Scope.Inside loops e.scope → e.Renamed given e' →
    (t.expression state e).1.Renamed same (t'.expression state' e').1 ∧
      related (e.id :: loops) (t.expression state e).2 (t'.expression state' e').2
  place : ∀ location, t.place location = t'.place location
  fewer : ∀ {loops more state state'}, loops ⊆ more → related more state state' →
    related loops state state'

theorem Parallel.attrs (parallel : Parallel t t' given same related) {loops : List String}
    {attributes attributes' : List Attribute}
    (renamed : List.Forall₂ (Attribute.Renamed given) attributes attributes')
    (enclosed : ∀ attr ∈ attributes, attr.Enclosed loops) {state state' : σ}
    (before : related loops state state') :
    List.Forall₂ (Attribute.Renamed same) (t.attrs state attributes).1
        (t'.attrs state' attributes').1 ∧
      related loops (t.attrs state attributes).2 (t'.attrs state' attributes').2 := by
  induction renamed generalizing state state' with
  | nil => exact ⟨.nil, before⟩
  | @cons attr attr' rest rest' own _ induction =>
      obtain ⟨name, value, site⟩ := attr
      obtain ⟨name', value', site'⟩ := attr'
      obtain ⟨rfl, values, sites⟩ := own
      rw [List.forall_mem_cons] at enclosed
      obtain ⟨⟨inside, inner⟩, behind⟩ := enclosed
      have place := parallel.site before inside sites
      cases values with
      | fixed text =>
          obtain ⟨rest_renamed, after⟩ := induction behind before
          exact ⟨.cons ⟨rfl, .fixed text, place⟩ rest_renamed, after⟩
      | @dynamic e e' both =>
          obtain ⟨visited, later⟩ := parallel.expression before
            (inner e (by simp [AttributeValue.expressions])) both
          obtain ⟨rest_renamed, after⟩ := induction behind
            (parallel.fewer (List.subset_cons_self _ _) later)
          exact ⟨.cons ⟨rfl, .dynamic visited, place⟩ rest_renamed, after⟩

/-- Two traversals that go the same way at every site go the same way through a whole tree. -/
theorem Parallel.nodes (parallel : Parallel t t' given same related) {nodes nodes' : List Node}
    (renamed : Node.Renamed given nodes nodes') {loops : List String}
    (enclosed : Node.EnclosedAll loops nodes) {state state' : σ}
    (before : related loops state state') :
    Node.Renamed same (t.nodes state nodes).1 (t'.nodes state' nodes').1 ∧
      related loops (t.nodes state nodes).2 (t'.nodes state' nodes').2 := by
  induction renamed generalizing loops state state' with
  | nil => exact ⟨.nil, before⟩
  | element attributes site _ _ below behind =>
      rw [Node.enclosedAll_cons, Node.Enclosed] at enclosed
      obtain ⟨⟨inside, own, inner⟩, outer⟩ := enclosed
      obtain ⟨attributes_renamed, header⟩ := parallel.attrs attributes own before
      obtain ⟨children_renamed, body⟩ := below inner header
      obtain ⟨rest_renamed, after⟩ := behind outer body
      exact ⟨.element attributes_renamed (parallel.site before inside site) children_renamed
        rest_renamed, after⟩
  | component attributes site _ _ below behind =>
      rw [Node.enclosedAll_cons, Node.Enclosed] at enclosed
      obtain ⟨⟨inside, own, inner⟩, outer⟩ := enclosed
      obtain ⟨attributes_renamed, header⟩ := parallel.attrs attributes own before
      obtain ⟨children_renamed, body⟩ := below inner header
      obtain ⟨rest_renamed, after⟩ := behind outer body
      exact ⟨.component attributes_renamed (parallel.site before inside site) children_renamed
        rest_renamed, after⟩
  | text site _ behind =>
      rw [Node.enclosedAll_cons, Node.Enclosed] at enclosed
      obtain ⟨rest_renamed, after⟩ := behind enclosed.2 before
      exact ⟨.text (parallel.site before enclosed.1 site) rest_renamed, after⟩
  | expression own _ behind =>
      rw [Node.enclosedAll_cons, Node.Enclosed] at enclosed
      obtain ⟨visited, later⟩ := parallel.expression before enclosed.1 own
      obtain ⟨rest_renamed, after⟩ := behind enclosed.2
        (parallel.fewer (List.subset_cons_self _ _) later)
      exact ⟨.expression visited rest_renamed, after⟩
  | conditional own _ _ _ left right behind =>
      rw [Node.enclosedAll_cons, Node.Enclosed] at enclosed
      obtain ⟨⟨inside, one, two⟩, outer⟩ := enclosed
      obtain ⟨visited, later⟩ := parallel.expression before inside own
      obtain ⟨first_renamed, middle⟩ := left one
        (parallel.fewer (List.subset_cons_self _ _) later)
      obtain ⟨second_renamed, body⟩ := right two middle
      obtain ⟨rest_renamed, after⟩ := behind outer body
      exact ⟨.conditional visited first_renamed second_renamed rest_renamed, after⟩
  | optional own _ _ below behind =>
      rw [Node.enclosedAll_cons, Node.Enclosed] at enclosed
      obtain ⟨⟨inside, inner⟩, outer⟩ := enclosed
      obtain ⟨visited, later⟩ := parallel.expression before inside own
      obtain ⟨branch_renamed, body⟩ := below inner
        (parallel.fewer (List.subset_cons_self _ _) later)
      obtain ⟨rest_renamed, after⟩ := behind outer body
      exact ⟨.optional visited branch_renamed rest_renamed, after⟩
  | loop own _ _ below behind =>
      rw [Node.enclosedAll_cons, Node.Enclosed] at enclosed
      obtain ⟨⟨inside, inner⟩, outer⟩ := enclosed
      obtain ⟨visited, later⟩ := parallel.expression before inside own
      -- inside the body the loop that has just been visited may be named
      obtain ⟨body_renamed, body⟩ := below inner later
      obtain ⟨rest_renamed, after⟩ := behind outer
        (parallel.fewer (List.subset_cons_self _ _) body)
      exact ⟨.loop visited body_renamed rest_renamed, after⟩
  | doctype _ behind =>
      rw [Node.enclosedAll_cons] at enclosed
      obtain ⟨rest_renamed, after⟩ := behind enclosed.2 before
      simp only [Traversal.nodes, Traversal.node, parallel.place]
      exact ⟨.doctype rest_renamed, after⟩

end Traversal

namespace Node

variable {nodes nodes' : List Node} {registry registry' : Registry}

/-- Where the loops around a site do not matter. -/
theorem renamed_traversal {t t' : Traversal Registry}
    (parallel : t.Parallel t' same same fun _ => Registry.InStep same)
    (renamed : Renamed same nodes nodes') (inStep : registry.InStep same registry') :
    Renamed same (t.nodes registry nodes).1 (t'.nodes registry' nodes').1 ∧
      (t.nodes registry nodes).2.InStep same (t'.nodes registry' nodes').2 := by
  obtain ⟨loops, enclosed⟩ := exists_enclosedAll nodes
  exact parallel.nodes renamed enclosed inStep

theorem relocate_renamed (location : Location) (renamed : Renamed same nodes nodes')
    (inStep : registry.InStep same registry') :
    Renamed same (relocate location registry nodes).1 (relocate location registry' nodes').1 ∧
      (relocate location registry nodes).2.InStep same (relocate location registry' nodes').2 :=
  renamed_traversal
    { site := fun _ _ own => ⟨rfl, own.scope⟩
      expression := fun inStep _ own => ⟨⟨own.id, own.code, rfl, own.scope⟩, inStep⟩
      place := fun _ => rfl
      fewer := fun _ inStep => inStep } renamed inStep

theorem rebind_renamed {scope scope' : Option Scope} (around : Scope.Renamed same scope scope')
    (renamed : Renamed same nodes nodes') (inStep : registry.InStep same registry') :
    Renamed same (rebind scope registry nodes).1 (rebind scope' registry' nodes').1 ∧
      (rebind scope registry nodes).2.InStep same (rebind scope' registry' nodes').2 := by
  rw [rebind, rebind, around.isNone_eq]
  split
  · exact ⟨renamed, inStep⟩
  · exact renamed_traversal
      { site := fun _ _ own => ⟨own.location, own.scope.merge around⟩
        expression := fun inStep _ own =>
          ⟨⟨own.id, own.code, own.location, own.scope.merge around⟩, inStep⟩
        place := fun _ => rfl
        fewer := fun _ inStep => inStep } renamed inStep

/-! ## Fresh ids -/

/-- Two copies are in step: ids that stood for each other have new names that stand for each other,
and a loop that has no new name stood for the same loops as now. -/
structure Copying (given same : String → String → Prop) (loops : List String)
    (state state' : Registry × Renaming) : Prop where
  inStep : state.1.InStep same state'.1
  names : ∀ {id id'}, given id id' →
    Option.Rel same (state.2.lookup id) (state'.2.lookup id')
  left : ∀ loop ∈ loops, state.2.lookup loop = none → ∀ {loop'}, given loop loop' →
    same loop loop'

theorem Copying.scope {loops : List String} {state state' : Registry × Renaming}
    (copying : Copying given same loops state state') {scope scope' : Option Scope}
    (inside : Scope.Inside loops scope) (renamed : Scope.Renamed given scope scope') :
    Scope.Renamed same (renameScope state.2 scope) (renameScope state'.2 scope') := by
  cases renamed with
  | none => exact .none
  | @some scope scope' both =>
      obtain ⟨bound, loop⟩ := scope
      obtain ⟨bound', loop'⟩ := scope'
      obtain ⟨rfl, named⟩ := both
      cases named with
      | none => exact .some ⟨rfl, .none⟩
      | @some id id' both =>
          have renames := copying.names both
          simp only [renameScope, Option.map_some, Option.bind_some]
          generalize found : state.2.lookup id = new at renames
          generalize found' : state'.2.lookup id' = new' at renames
          cases renames with
          | some new_both => exact .some ⟨rfl, .some new_both⟩
          | none => exact .some ⟨rfl, .some (copying.left id (inside id rfl) found both)⟩

theorem rekeying_parallel (given_one : OneToOne given) :
    rekeying.Parallel rekeying given same (Copying given same) where
  site copying inside own := ⟨own.location, copying.scope inside own.scope⟩
  expression {loops state state' e e'} copying inside own := by
    have scopes := copying.scope inside own.scope
    obtain ⟨new, inStep⟩ := copying.inStep.register (kindOf e.id) e.code e.location
      (renameScope state.2 e.scope) (renameScope state'.2 e'.scope)
    have kinds : kindOf e'.id = kindOf e.id := (given_one.kind own.id).symm
    simp only [rekeying, kinds, ← own.code, ← own.location]
    refine ⟨⟨new, rfl, rfl, scopes⟩, inStep, ?_, ?_⟩
    · intro id id' both
      rw [List.lookup_cons, List.lookup_cons]
      by_cases visited : id = e.id
      · subst visited
        rw [given_one.right both own.id, beq_self_eq_true, beq_self_eq_true]
        exact .some new
      · have visited' : id' ≠ e'.id := fun equal => visited (given_one.left both (equal ▸ own.id))
        rw [beq_false_of_ne visited, beq_false_of_ne visited']
        exact copying.names both
    · intro loop member unnamed
      rw [List.lookup_cons] at unnamed
      by_cases visited : loop = e.id
      · rw [visited, beq_self_eq_true] at unnamed
        cases unnamed
      · rw [beq_false_of_ne visited] at unnamed
        exact copying.left loop ((List.mem_cons.mp member).resolve_left visited) unnamed
  place _ := rfl
  fewer part copying :=
    ⟨copying.inStep, copying.names, fun loop member => copying.left loop (part member)⟩

/-- Copies of renamed nodes are renamed, if the loops around the nodes go on standing for each
other. -/
theorem rekey_renamed (given_one : OneToOne given) {loops : List String}
    (kept : ∀ loop ∈ loops, ∀ {loop'}, given loop loop' → same loop loop')
    (enclosed : EnclosedAll loops nodes) (renamed : Renamed given nodes nodes')
    (inStep : registry.InStep same registry') :
    Renamed same (rekey registry nodes).1 (rekey registry' nodes').1 ∧
      (rekey registry nodes).2.InStep same (rekey registry' nodes').2 := by
  have start : Copying given same loops (registry, []) (registry', []) :=
    ⟨inStep, fun _ => .none, fun loop member _ => kept loop member⟩
  obtain ⟨copied, after⟩ := (rekeying_parallel given_one).nodes renamed enclosed start
  exact ⟨copied, after.inStep⟩

end Node
end ReactiveTemplate
