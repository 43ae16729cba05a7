import Mathlib.Data.Bool.Basic
import ReactiveTemplate.Page.Output
import ReactiveTemplate.Proofs.Component.Completeness

/-!
# Bindings and sites

Every dynamic site of a tree has one binding, apart from the handlers of events that the markup names.
Sites are listed here in the order of the ids of a tree; bindings are made in the order of writing,
where a fragment comes after its branches, and then sorted by location.  Main statement: the bindings
of a written page are those of the sites of its tree, sorted, with ties in the order of writing.
-/

namespace ReactiveTemplate
namespace Page

open Node (allNodes allNodesOfList)

/-- A dynamic site of a tree, with all that its binding tells. -/
structure DynamicSite where
  /-- The id. -/
  id : String
  /-- The kind. -/
  kind : BindingKind
  /-- What an attribute sets. -/
  target : Option String := none
  /-- The code that gives the value. -/
  code : String
  /-- Where the site stands and what it sees. -/
  site : Site
  /-- What a loop repeats, and the names it binds. -/
  body : Option (LoopBinder × List Node) := none
  /-- The site handles an event and the markup names the handler, so that no binding is needed. -/
  named : Bool := false

namespace DynamicSite

/-- What an attribute of the given name sets: the handler of an event is named for the event. -/
def targetOf (name : String) : String :=
  match eventName? name with
  | some event => String.ofList ("on".toList ++ event)
  | none => name

/-- The site of an attribute, if its value is an expression. -/
def ofAttribute? (attr : Attribute) : Option DynamicSite :=
  match attr.value with
  | .fixed _ => none
  | .dynamic e =>
    some
      { id := e.id
        kind := .attr
        target := some (targetOf attr.name)
        code := e.code
        site := ⟨e.location, e.scope⟩
        named := (eventName? attr.name).isSome && isName e.code.toList }

mutual

/-- The sites of a node and of everything below it, in the order of its ids. -/
def ofNode : Node → List DynamicSite
  | .element _ attributes children _ | .component _ attributes children _ =>
    attributes.filterMap ofAttribute? ++ ofNodes children
  | .text .. | .doctype .. => []
  | .expression e =>
    [{ id := e.id, kind := .text, code := e.code, site := ⟨e.location, e.scope⟩ }]
  | .conditional id condition consequent alternate site =>
    { id, kind := .conditional, code := condition, site } ::
      (ofNodes consequent ++ ofNodes alternate)
  | .optional id condition branch site =>
    { id, kind := .optional, code := condition, site } :: ofNodes branch
  | .loop id source binder body site =>
    { id, kind := .loop, code := source, site, body := some (binder, body) } :: ofNodes body

/-- The sites of a list of nodes, in the order of their ids. -/
def ofNodes : List Node → List DynamicSite
  | [] => []
  | node :: rest => ofNode node ++ ofNodes rest

end

/-- The binding of a site, if it needs one.  A loop is written out with the markup of its body. -/
def binding? (site : DynamicSite) : Option Binding :=
  if site.named then none
  else
    some
      { id := site.id
        kind := site.kind
        target := site.target
        expression := site.code
        site := site.site
        body := site.body.map fun (binder, nodes) => ⟨binder, (emit nodes).html⟩ }

/-! ## Ids -/

theorem ids_ofAttributes (attributes : List Attribute) :
    (attributes.filterMap ofAttribute?).map id = Attribute.ids attributes := by
  rw [Attribute.ids, List.map_filterMap]
  apply List.filterMap_congr
  intro attr _
  unfold ofAttribute? Attribute.id?
  cases attr.value with
  | fixed text => rfl
  | dynamic e => rfl

mutual

theorem ids_ofNode : ∀ node : Node, (ofNode node).map id = node.ids
  | .element tag attributes children site | .component tag attributes children site => by
      rw [ofNode, Node.ids, List.map_append, ids_ofAttributes, ids_ofNodes children]
  | .text .. | .doctype .. | .expression _ => by
      simp [ofNode, Node.ids]
  | .conditional _ _ consequent alternate site => by
      simp [ofNode, Node.ids, ids_ofNodes consequent, ids_ofNodes alternate]
  | .optional _ _ branch site | .loop _ _ _ branch site => by
      simp [ofNode, Node.ids, ids_ofNodes branch]

/-- The sites of a tree have the ids of the tree. -/
theorem ids_ofNodes : ∀ nodes : List Node, (ofNodes nodes).map id = Node.idsOfList nodes
  | [] => rfl
  | node :: rest => by
      rw [ofNodes, Node.idsOfList, List.map_append, ids_ofNode node, ids_ofNodes rest]

end

end DynamicSite

/-! ## Bindings -/

/-- An attribute has the binding of its site. -/
theorem attributeBinding?_eq (attr : Attribute) :
    attributeBinding? attr = (DynamicSite.ofAttribute? attr).bind DynamicSite.binding? := by
  unfold attributeBinding? formOf DynamicSite.ofAttribute? DynamicSite.targetOf
  cases attr.value with
  | fixed text =>
      cases eventName? attr.name with
      | some event => rfl
      | none =>
          by_cases empty : text.isEmpty = true
          · simp [empty]
          · simp [empty]
  | dynamic e =>
      cases eventName? attr.name with
      | none => simp [DynamicSite.binding?]
      | some event =>
          by_cases named : isName e.code.toList = true
          · simp [DynamicSite.binding?, named]
          · simp [DynamicSite.binding?, named]

theorem attributeBindings_eq (attributes : List Attribute) :
    attributes.filterMap attributeBinding? =
      (attributes.filterMap DynamicSite.ofAttribute?).filterMap DynamicSite.binding? := by
  rw [List.filterMap_filterMap]
  exact List.filterMap_congr fun attr _ => attributeBinding?_eq attr

/-- The node is not a usage, and has no children that its tag forbids. -/
def Writable : Node → Prop
  | .component .. => False
  | .element tag _ children _ => Markup.isVoidElement tag = true → children = []
  | _ => True

/-- A fragment is written after its branches and listed before them. -/
theorem perm_fragment {own : DynamicSite} {binding : Binding} {written : List Binding}
    {sites : List DynamicSite} (made : own.binding? = some binding)
    (below : written.Perm (sites.filterMap DynamicSite.binding?)) :
    (written ++ [binding]).Perm ((own :: sites).filterMap DynamicSite.binding?) := by
  rw [List.filterMap_cons_some made]
  exact (List.perm_append_singleton binding written).trans (below.cons binding)

mutual

theorem nodeBindings_perm : ∀ {node : Node}, Node.Everywhere Writable [node] →
    (nodeBindings node).Perm ((DynamicSite.ofNode node).filterMap DynamicSite.binding?)
  | .element tag attributes children site, writable => by
      simp only [Node.everywhere_singleton, Node.childLists, List.forall_mem_singleton] at writable
      rw [nodeBindings, DynamicSite.ofNode, List.filterMap_append, attributeBindings_eq]
      apply List.Perm.append_left
      split
      · rename_i void
        rw [writable.1 void]
        exact List.Perm.refl _
      · exact nodesBindings_perm writable.2
  | .component .., writable => by
      rw [Node.everywhere_singleton] at writable
      exact writable.1.elim
  | .text .., _ | .doctype .., _ => List.Perm.refl _
  | .expression _, _ => List.Perm.refl _
  | .conditional id condition consequent alternate site, writable => by
      simp only [Node.everywhere_singleton, Node.childLists, List.forall_mem_cons] at writable
      have first := nodesBindings_perm writable.2.1
      have second := nodesBindings_perm writable.2.2.1
      rw [nodeBindings, DynamicSite.ofNode]
      apply perm_fragment rfl
      rw [List.filterMap_append]
      exact first.append second
  | .optional id condition branch site, writable | .loop id condition _ branch site, writable => by
      simp only [Node.everywhere_singleton, Node.childLists, List.forall_mem_singleton] at writable
      rw [nodeBindings, DynamicSite.ofNode]
      exact perm_fragment rfl (nodesBindings_perm writable.2)

/-- The bindings of a tree are those of its sites, in another order. -/
theorem nodesBindings_perm : ∀ {nodes : List Node}, Node.Everywhere Writable nodes →
    (nodesBindings nodes).Perm ((DynamicSite.ofNodes nodes).filterMap DynamicSite.binding?)
  | [], _ => List.Perm.refl _
  | node :: rest, writable => by
      rw [Node.everywhere_cons, ← Node.everywhere_singleton] at writable
      rw [nodesBindings, DynamicSite.ofNodes, List.filterMap_append]
      exact (nodeBindings_perm writable.1).append (nodesBindings_perm writable.2)

end

/-! ## Order -/

/-- A binding may stand before another one: the other does not come earlier in the source. -/
def mayPrecede (first second : Binding) : Bool :=
  !second.site.location.before first.site.location

theorem mayPrecede_total (first second : Binding) :
    (mayPrecede first second || mayPrecede second first) = true := by
  simp only [mayPrecede, Location.before]
  grind [UInt32.lt_iff_toNat_lt]

theorem mayPrecede_trans (first second third : Binding) (left : mayPrecede first second = true)
    (right : mayPrecede second third = true) : mayPrecede first third = true := by
  simp only [mayPrecede, Location.before] at left right ⊢
  grind [UInt32.lt_iff_toNat_lt]

/-- Bindings at one location may stand in any order. -/
theorem mayPrecede_of_eq {first second : Binding}
    (same : first.site.location = second.site.location) : mayPrecede first second = true := by
  simp only [mayPrecede, Location.before, same]
  grind [UInt32.lt_iff_toNat_lt]

/-- The bindings at a location, in order. -/
def bindingsAt (location : Location) (bindings : List Binding) : List Binding :=
  bindings.filter fun binding => binding.site.location == location

/-- Sorting keeps the order of the bindings at one location. -/
theorem bindingsAt_mergeSort (location : Location) (bindings : List Binding) :
    bindingsAt location (bindings.mergeSort mayPrecede) = bindingsAt location bindings := by
  have alike : (bindingsAt location bindings).Pairwise fun a b => mayPrecede a b = true := by
    apply List.pairwise_of_forall_mem_list
    intro first here second there
    have same : ∀ binding ∈ bindingsAt location bindings, binding.site.location = location := by
      intro binding member
      simpa using (List.mem_filter.mp member).2
    exact mayPrecede_of_eq ((same first here).trans (same second there).symm)
  have kept : (bindingsAt location bindings).Sublist (bindings.mergeSort mayPrecede) :=
    List.sublist_mergeSort mayPrecede_trans mayPrecede_total alike List.filter_sublist
  have within : (bindingsAt location bindings).Sublist
      (bindingsAt location (bindings.mergeSort mayPrecede)) := by
    have again := kept.filter fun binding => binding.site.location == location
    simpa only [bindingsAt, List.filter_filter, Bool.and_self] using again
  have perm : (bindingsAt location (bindings.mergeSort mayPrecede)).Perm
      (bindingsAt location bindings) := (List.mergeSort_perm bindings mayPrecede).filter _
  exact (within.eq_of_length perm.length_eq.symm).symm

/-- The bindings of a written page are in the order of their locations, and at one location in the
order of writing.  They are the bindings of the dynamic sites of the tree, whose ids are those of the
tree; a loop comes with the markup that its body is written as. -/
theorem emit_bindings {nodes : List Node} (writable : Node.Everywhere Writable nodes) :
    ((emit nodes).bindings.Pairwise fun first second =>
      second.site.location.before first.site.location = false) ∧
    (∀ location, bindingsAt location (emit nodes).bindings =
      bindingsAt location (nodesBindings nodes)) ∧
    (emit nodes).bindings.Perm
      ((DynamicSite.ofNodes nodes).filterMap DynamicSite.binding?) ∧
    (DynamicSite.ofNodes nodes).map DynamicSite.id = Node.idsOfList nodes := by
  have sorted : (emit nodes).bindings = (nodesBindings nodes).mergeSort mayPrecede := rfl
  refine ⟨?_, ?_, ?_, DynamicSite.ids_ofNodes nodes⟩
  · rw [sorted]
    refine (List.pairwise_mergeSort mayPrecede_trans mayPrecede_total _).imp ?_
    intro first second order
    simpa [mayPrecede] using order
  · intro location
    rw [sorted, bindingsAt_mergeSort]
  · rw [sorted]
    exact (List.mergeSort_perm _ _).trans (nodesBindings_perm writable)

/-- A button whose handler has a name and whose title does not, before a loop in a loop at one
location. -/
def menuNodes : List Node :=
  let place (line column : UInt32) : Site := ⟨⟨line, column⟩, none⟩
  [.element "button"
      [⟨"onclick", .dynamic ⟨"expr_0", "save", ⟨1, 9⟩, none⟩, place 1 9⟩,
        ⟨"title", .dynamic ⟨"expr_1", "a + b", ⟨7, 1⟩, none⟩, place 7 1⟩] [] (place 1 1),
    .loop "loop_2" "rows" ⟨"row", none, ["row"]⟩
      [.loop "loop_3" "row" ⟨"cell", some "i", ["cell", "i"]⟩
        [.expression ⟨"expr_4", "cell", ⟨2, 5⟩, some ⟨["row", "cell", "i"], some "loop_3"⟩⟩]
        ⟨⟨2, 1⟩, some ⟨["row"], some "loop_2"⟩⟩] (place 2 1)]

/-- The inner loop is written first, and so stays before the outer one at the same location; the
named handler has no binding. -/
theorem emit_bindings_menu :
    Node.Everywhere Writable menuNodes ∧
    (bindingsAt ⟨2, 1⟩ (emit menuNodes).bindings).map Binding.id = ["loop_3", "loop_2"] ∧
    ((emit menuNodes).bindings.map Binding.id).Perm ["expr_1", "loop_2", "loop_3", "expr_4"] ∧
    Node.idsOfList menuNodes = ["expr_0", "expr_1", "loop_2", "loop_3", "expr_4"] := by
  have writable : Node.Everywhere Writable menuNodes := by
    simp [menuNodes, Node.Everywhere, allNodesOfList, allNodes, Writable]
  obtain ⟨-, ties, image, ids⟩ := emit_bindings writable
  have needed : ((DynamicSite.ofNodes menuNodes).filterMap DynamicSite.binding?).map Binding.id =
      ["expr_1", "loop_2", "loop_3", "expr_4"] := by decide +kernel
  refine ⟨writable, ?_, needed ▸ image.map Binding.id, by rw [← ids]; decide +kernel⟩
  rw [ties]
  decide +kernel

end Page
end ReactiveTemplate
