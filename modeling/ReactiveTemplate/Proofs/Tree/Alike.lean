import Mathlib.Data.List.Forall2
import ReactiveTemplate.Tree.Traversal

/-!
# Trees of one shape

Two trees are alike when they have the same nodes, tags, attributes and texts in the same places,
and their expressions are related pairwise; ids, places and scopes may differ.  Every traversal
leaves a tree that is alike.
-/

namespace ReactiveTemplate

/-- Expressions have the same code. -/
def SameCode (e e' : Expression) : Prop := e'.code = e.code

variable {related : Expression → Expression → Prop}

/-- Values are the same text, or related expressions. -/
inductive AttributeValue.Alike (related : Expression → Expression → Prop) :
    AttributeValue → AttributeValue → Prop where
  /-- Fixed text. -/
  | fixed (text : String) : Alike related (.fixed text) (.fixed text)
  /-- Expressions. -/
  | dynamic {e e' : Expression} : related e e' → Alike related (.dynamic e) (.dynamic e')

/-- Attributes have the same names in the same order, and values that are alike. -/
def Attribute.Alike (related : Expression → Expression → Prop) :
    List Attribute → List Attribute → Prop :=
  List.Forall₂ fun attr attr' => attr.name = attr'.name ∧ attr.value.Alike related attr'.value

theorem Attribute.Alike.fixed? {attributes attributes' : List Attribute}
    (alike : Attribute.Alike related attributes attributes') (name : String) :
    Attribute.fixed? attributes name = Attribute.fixed? attributes' name := by
  induction alike with
  | nil => rfl
  | @cons attr attr' rest rest' own alike induction =>
      obtain ⟨attrName, value, site⟩ := attr
      obtain ⟨attrName', value', site'⟩ := attr'
      obtain ⟨rfl, values⟩ := own
      rw [Attribute.fixed?, Attribute.fixed?, Attribute.find?, Attribute.find?] at induction ⊢
      rw [List.find?_cons, List.find?_cons]
      cases named : attrName == name with
      | true =>
          cases values with
          | fixed text => rfl
          | dynamic _ => rfl
      | false => exact induction

theorem Attribute.Alike.names_eq {attributes attributes' : List Attribute}
    (alike : Attribute.Alike related attributes attributes') :
    attributes.map (·.name) = attributes'.map (·.name) := by
  induction alike with
  | nil => rfl
  | cons own _ induction => rw [List.map_cons, List.map_cons, own.1, induction]

theorem AttributeValue.Alike.refl (reflexive : ∀ e, related e e) (value : AttributeValue) :
    value.Alike related value := by
  cases value with
  | fixed text => exact .fixed text
  | dynamic e => exact .dynamic (reflexive e)

theorem AttributeValue.Alike.trans
    (transitive : ∀ e e' e'', related e e' → related e' e'' → related e e'')
    {value value' value'' : AttributeValue} (first : value.Alike related value')
    (second : value'.Alike related value'') : value.Alike related value'' := by
  cases first with
  | fixed text => exact second
  | dynamic same =>
      cases second with
      | dynamic same' => exact .dynamic (transitive _ _ _ same same')

theorem Attribute.Alike.refl (reflexive : ∀ e, related e e) (attributes : List Attribute) :
    Attribute.Alike related attributes attributes :=
  List.forall₂_same.mpr fun attr _ => ⟨rfl, .refl reflexive attr.value⟩

theorem Attribute.Alike.trans
    (transitive : ∀ e e' e'', related e e' → related e' e'' → related e e'')
    {attributes attributes' attributes'' : List Attribute}
    (first : Attribute.Alike related attributes attributes')
    (second : Attribute.Alike related attributes' attributes'') :
    Attribute.Alike related attributes attributes'' := by
  induction first generalizing attributes'' with
  | nil => exact second
  | cons own _ induction =>
      cases second with
      | cons own' rest =>
          exact .cons ⟨own.1.trans own'.1, own.2.trans transitive own'.2⟩ (induction rest)

theorem Attribute.Alike.weaken {weaker : Expression → Expression → Prop}
    (implies : ∀ e e', related e e' → weaker e e') {attributes attributes' : List Attribute}
    (alike : Attribute.Alike related attributes attributes') :
    Attribute.Alike weaker attributes attributes' := by
  refine alike.imp fun attr attr' own => ⟨own.1, ?_⟩
  obtain ⟨-, values⟩ := own
  generalize attr.value = value at values ⊢
  generalize attr'.value = value' at values ⊢
  cases values with
  | fixed text => exact .fixed text
  | dynamic same => exact .dynamic (implies _ _ same)

namespace Node

/-- Nodes are the same but for their expressions, which are related, and their sites. -/
inductive Alike (related : Expression → Expression → Prop) : List Node → List Node → Prop where
  | nil : Alike related [] []
  | element {tag : String} {attributes attributes' : List Attribute} {site site' : Site}
      {children children' rest rest' : List Node} :
      Attribute.Alike related attributes attributes' → Alike related children children' →
      Alike related rest rest' →
      Alike related (.element tag attributes children site :: rest)
        (.element tag attributes' children' site' :: rest')
  | component {name : String} {attributes attributes' : List Attribute} {site site' : Site}
      {children children' rest rest' : List Node} :
      Attribute.Alike related attributes attributes' → Alike related children children' →
      Alike related rest rest' →
      Alike related (.component name attributes children site :: rest)
        (.component name attributes' children' site' :: rest')
  | text {value : String} {site site' : Site} {rest rest' : List Node} :
      Alike related rest rest' →
      Alike related (.text value site :: rest) (.text value site' :: rest')
  | expression {e e' : Expression} {rest rest' : List Node} :
      related e e' → Alike related rest rest' →
      Alike related (.expression e :: rest) (.expression e' :: rest')
  | conditional {id id' condition condition' : String} {site site' : Site}
      {first first' second second' rest rest' : List Node} :
      related ⟨id, condition, site.location, site.scope⟩
        ⟨id', condition', site'.location, site'.scope⟩ →
      Alike related first first' → Alike related second second' → Alike related rest rest' →
      Alike related (.conditional id condition first second site :: rest)
        (.conditional id' condition' first' second' site' :: rest')
  | optional {id id' condition condition' : String} {site site' : Site}
      {branch branch' rest rest' : List Node} :
      related ⟨id, condition, site.location, site.scope⟩
        ⟨id', condition', site'.location, site'.scope⟩ →
      Alike related branch branch' → Alike related rest rest' →
      Alike related (.optional id condition branch site :: rest)
        (.optional id' condition' branch' site' :: rest')
  | loop {id id' source source' : String} {binder : LoopBinder} {site site' : Site}
      {body body' rest rest' : List Node} :
      related ⟨id, source, site.location, site.scope⟩
        ⟨id', source', site'.location, site'.scope⟩ →
      Alike related body body' → Alike related rest rest' →
      Alike related (.loop id source binder body site :: rest)
        (.loop id' source' binder body' site' :: rest')
  | doctype {name publicId systemId : String} {location location' : Location}
      {rest rest' : List Node} :
      Alike related rest rest' →
      Alike related (.doctype name publicId systemId location :: rest)
        (.doctype name publicId systemId location' :: rest')

theorem Alike.append {left left' right right' : List Node} (first : Alike related left left')
    (second : Alike related right right') : Alike related (left ++ right) (left' ++ right') := by
  induction first with
  | nil => exact second
  | element attributes children _ _ induction => exact .element attributes children induction
  | component attributes children _ _ induction => exact .component attributes children induction
  | text _ induction => exact .text induction
  | expression same _ induction => exact .expression same induction
  | conditional same first second _ _ _ induction => exact .conditional same first second induction
  | optional same branch _ _ induction => exact .optional same branch induction
  | loop same body _ _ induction => exact .loop same body induction
  | doctype _ induction => exact .doctype induction

theorem Alike.refl (reflexive : ∀ e, related e e) :
    ∀ nodes : List Node, Alike related nodes nodes
  | [] => .nil
  | .element _ attributes children _ :: rest =>
    .element (.refl reflexive attributes) (refl reflexive children) (refl reflexive rest)
  | .component _ attributes children _ :: rest =>
    .component (.refl reflexive attributes) (refl reflexive children) (refl reflexive rest)
  | .text .. :: rest => .text (refl reflexive rest)
  | .expression e :: rest => .expression (reflexive e) (refl reflexive rest)
  | .conditional _ _ consequent alternate _ :: rest =>
    .conditional (reflexive _) (refl reflexive consequent) (refl reflexive alternate)
      (refl reflexive rest)
  | .optional _ _ branch _ :: rest =>
    .optional (reflexive _) (refl reflexive branch) (refl reflexive rest)
  | .loop _ _ _ body _ :: rest => .loop (reflexive _) (refl reflexive body) (refl reflexive rest)
  | .doctype .. :: rest => .doctype (refl reflexive rest)

theorem Alike.trans
    (transitive : ∀ e e' e'', related e e' → related e' e'' → related e e'')
    {nodes nodes' nodes'' : List Node} (first : Alike related nodes nodes')
    (second : Alike related nodes' nodes'') : Alike related nodes nodes'' := by
  induction first generalizing nodes'' with
  | nil => exact second
  | element attributes _ _ below behind =>
      cases second with
      | element attributes' children' rest' =>
          exact .element (attributes.trans transitive attributes') (below children') (behind rest')
  | component attributes _ _ below behind =>
      cases second with
      | component attributes' children' rest' =>
          exact .component (attributes.trans transitive attributes') (below children')
            (behind rest')
  | text _ behind =>
      cases second with
      | text rest' => exact .text (behind rest')
  | expression same _ behind =>
      cases second with
      | expression same' rest' => exact .expression (transitive _ _ _ same same') (behind rest')
  | conditional same _ _ _ left right behind =>
      cases second with
      | conditional same' first' second' rest' =>
          exact .conditional (transitive _ _ _ same same') (left first') (right second')
            (behind rest')
  | optional same _ _ below behind =>
      cases second with
      | optional same' branch' rest' =>
          exact .optional (transitive _ _ _ same same') (below branch') (behind rest')
  | loop same _ _ below behind =>
      cases second with
      | loop same' body' rest' =>
          exact .loop (transitive _ _ _ same same') (below body') (behind rest')
  | doctype _ behind =>
      cases second with
      | doctype rest' => exact .doctype (behind rest')

theorem Alike.heightOfList_eq {nodes nodes' : List Node} (alike : Alike related nodes nodes') :
    heightOfList nodes = heightOfList nodes' := by
  induction alike with
  | nil => rfl
  | text _ behind | expression _ _ behind | doctype _ behind =>
      simp only [heightOfList, height, behind]
  | element _ _ _ below behind | component _ _ _ below behind | optional _ _ _ below behind
  | loop _ _ _ below behind =>
      simp only [heightOfList, height, below, behind]
  | conditional _ _ _ _ first second behind =>
      simp only [heightOfList, height, first, second, behind]

end Node

namespace Traversal

variable {σ : Type} {t : Traversal σ}

theorem attrs_alike (step : ∀ state e, related e (t.expression state e).1)
    (attributes : List Attribute) (state : σ) :
    Attribute.Alike related attributes (t.attrs state attributes).1 := by
  induction attributes generalizing state with
  | nil => exact List.Forall₂.nil
  | cons attr rest induction =>
      obtain ⟨name, value, site⟩ := attr
      cases value with
      | fixed text => exact List.Forall₂.cons ⟨rfl, .fixed text⟩ (induction _)
      | dynamic e => exact List.Forall₂.cons ⟨rfl, .dynamic (step state e)⟩ (induction _)

/-- A traversal leaves nodes that are alike. -/
theorem nodes_alike (step : ∀ state e, related e (t.expression state e).1) :
    ∀ (nodes : List Node) (state : σ), Node.Alike related nodes (t.nodes state nodes).1
  | [], _ => .nil
  | .element _ attributes children _ :: rest, state =>
    .element (attrs_alike step attributes state) (nodes_alike step children _)
      (nodes_alike step rest _)
  | .component _ attributes children _ :: rest, state =>
    .component (attrs_alike step attributes state) (nodes_alike step children _)
      (nodes_alike step rest _)
  | .text .. :: rest, _ => .text (nodes_alike step rest _)
  | .expression e :: rest, state => .expression (step state e) (nodes_alike step rest _)
  | .conditional _ _ consequent alternate _ :: rest, state =>
    .conditional (step state _) (nodes_alike step consequent _) (nodes_alike step alternate _)
      (nodes_alike step rest _)
  | .optional _ _ branch _ :: rest, state =>
    .optional (step state _) (nodes_alike step branch _) (nodes_alike step rest _)
  | .loop _ _ _ body _ :: rest, state =>
    .loop (step state _) (nodes_alike step body _) (nodes_alike step rest _)
  | .doctype .. :: rest, _ => .doctype (nodes_alike step rest _)

end Traversal
end ReactiveTemplate
