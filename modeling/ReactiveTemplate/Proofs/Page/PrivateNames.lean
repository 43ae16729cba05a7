import ReactiveTemplate.Proofs.Component.Leftovers
import ReactiveTemplate.Proofs.Component.Marks
import ReactiveTemplate.Proofs.Component.Recursion
import ReactiveTemplate.Proofs.Page.Reading
import ReactiveTemplate.Proofs.Template.PrivateNames

/-!
# Private names in the page

The attributes that a draft adds to its tags are for the reader of the template alone.  Main
statement: no element of a resolved tree has one of them, whatever the markup of the page and of its
components is, unless a source spells out their names; so they are in no tag of the page either, but
for the handler of an event whose name happens to make the same name.
-/

namespace ReactiveTemplate

open Node (Everywhere Labelled)

/-! ## Names in a resolved tree -/

namespace Node

variable {naming : Naming} {nodes : List Node}

/-- The attributes of the label have names that they may have, and it says what it may say. -/
def Label.Obeys (naming : Naming) : Label → Prop
  | .element _ names | .usage _ names => ∀ name ∈ names, naming.name name
  | .text value => naming.text value
  | .other => True

theorem Obeys.labelled (obeys : Everywhere (Obeys naming) nodes) :
    Everywhere (Labelled (Label.Obeys naming)) nodes := by
  intro node member
  have own := obeys node member
  cases node with
  | element tag attributes | component tag attributes => exact List.forall_mem_map.mpr own
  | text => exact own
  | _ => trivial

end Node

namespace Component

variable {naming : Node.Naming} {library : Library}

/-- A naming lasts if the mark and the templates of definitions obey it. -/
theorem durable_obeys (mark : naming.name ownerAttribute)
    (obeys : ∀ entry ∈ library.entries, ∀ nodes after, template entry.2 = .ok (nodes, after) →
      Everywhere (Node.Obeys naming) nodes) : Durable library (Node.Label.Obeys naming) where
  copied found copy_ok := by
    obtain ⟨key, listed⟩ := Library.mem_of_lookup? found
    obtain ⟨nodes, last, template_ok, alike⟩ := copy_template copy_ok
    have labelled := alike.labelled (Node.Obeys.labelled (obeys _ listed _ _ template_ok))
    exact fun node member _ => labelled node member
  takes given := by
    intro own taken subset
    have all (before : ∀ name ∈ own, naming.name name) : ∀ name ∈ taken, naming.name name := by
      intro name member
      rcases List.mem_cons.mp (subset member) with rfl | either
      · exact mark
      · exact (List.mem_append.mp either).elim (before name) (given name)
    exact ⟨fun _ => all, fun _ => all⟩

/-- The template of a definition obeys the naming that what is read from its source obeys. -/
theorem template_obeys {key path source : String} {definition : Definition}
    (obeys : ∀ {template parsed}, Template.parse source path {} = .ok (template, parsed) →
      Everywhere (Node.Obeys naming) template.nodes)
    (read : Definition.ofSource key path source = .ok definition) {nodes : List Node}
    {after : Registry} (ok : template definition = .ok (nodes, after)) :
    Everywhere (Node.Obeys naming) nodes := by
  have own : Everywhere (Node.Obeys naming) definition.nodes := by
    rw [Definition.ofSource] at read
    split at read
    · cases read
    · rename_i parsed
      cases read
      exact obeys parsed
  have step : ∀ state e, SameCode e (Node.rekeying.expression state e).1 := fun _ _ => rfl
  have alike := Traversal.nodes_alike step definition.nodes (({} : Registry), [])
  exact Fragment.lower_own (Fragment.grounds_obeys naming) (alike.obeys own) ok

/-- A resolved tree obeys the naming that the page and the templates of definitions obey. -/
theorem resolve_obeys (naming : Node.Naming) (mark : naming.name ownerAttribute)
    (definitions : ∀ entry ∈ library.entries, ∀ nodes after,
      template entry.2 = .ok (nodes, after) → Everywhere (Node.Obeys naming) nodes)
    {file : String} {page nodes : List Node} {parsed registry after : Registry}
    {resolution : Resolution} (obeys : Everywhere (Node.Obeys naming) page)
    (lower_ok : Fragment.lower page file parsed = .ok (nodes, registry))
    (resolve_ok : resolve library file nodes registry = .ok (resolution, after)) :
    (∀ node ∈ Node.allNodesOfList resolution.nodes, ∀ attr ∈ node.attributes,
      naming.name attr.name) ∧
      ∀ value site, .text value site ∈ Node.allNodesOfList resolution.nodes →
        naming.text value := by
  have lowered := Fragment.lower_own (Fragment.grounds_obeys naming) obeys lower_ok
  have settled := resolve_settles (durable_obeys mark definitions) (Node.Obeys.labelled lowered)
    resolve_ok
  refine ⟨fun node member attr listed => ?_, fun value site member => settled _ member⟩
  have own := settled node member
  cases node with
  | element tag attributes => exact own attr.name (List.mem_map_of_mem listed)
  | component => exact own.elim
  | _ => cases listed

end Component

/-! ## Names in tags -/

namespace Page

open Component Template

/-- The fields of a piece. -/
def Piece.fields : Piece → List Field
  | .opening _ fields => fields
  | _ => []

/-- The names of the fields that mark dynamic sites and say how they are displayed. -/
def siteNames : List String :=
  ["data-zen-text", "data-zen-cond", "data-zen-branch", "data-zen-opt", "data-zen-loop",
    "data-zen-item", "data-zen-index", "style"]

section

variable {holds : Field → Prop}

theorem fields_enclose {tag : String} {fields : List Field} {content : List Piece}
    (own : ∀ field ∈ fields, holds field)
    (inside : ∀ field ∈ content.flatMap Piece.fields, holds field) :
    ∀ field ∈ (Piece.enclose tag fields content).flatMap Piece.fields, holds field := by
  rw [Piece.enclose, List.flatMap_cons, List.flatMap_append, List.flatMap_singleton]
  simp only [Piece.fields, List.append_nil, List.forall_mem_append]
  exact ⟨own, inside⟩

mutual

theorem nodePieces_fields
    (sites : ∀ name ∈ siteNames, ∀ value, holds (.valued name value)) : ∀ {node : Node},
    Everywhere (fun node => ∀ attr ∈ node.attributes, holds (Field.ofAttribute attr)) [node] →
      ∀ field ∈ (nodePieces node).flatMap Piece.fields, holds field
  | .element tag attributes children site, written => by
      simp only [Node.everywhere_singleton, Node.childLists, List.forall_mem_singleton] at written
      have own : ∀ field ∈ attributes.map Field.ofAttribute, holds field :=
        List.forall_mem_map.mpr written.1
      rw [nodePieces]
      split
      · rw [List.flatMap_singleton]
        exact own
      · split
        · exact fields_enclose own (rawPieces_fields sites written.2)
        · exact fields_enclose own (nodesPieces_fields sites written.2)
  | .expression e, _ => by
      rw [nodePieces]
      refine fields_enclose ?_ (List.forall_mem_nil _)
      exact List.forall_mem_cons.mpr
        ⟨sites "data-zen-text" (by decide) _,
          List.forall_mem_singleton.mpr (sites "style" (by decide) _)⟩
  | .conditional id condition consequent alternate site, written => by
      simp only [Node.everywhere_singleton, Node.childLists, List.forall_mem_cons] at written
      have own (name style : String) : ∀ field ∈ Field.ofBranch id name style, holds field := by
        rw [Field.ofBranch, List.forall_mem_cons, List.forall_mem_cons, List.forall_mem_singleton]
        exact ⟨sites "data-zen-cond" (by decide) _, sites "data-zen-branch" (by decide) _,
          sites "style" (by decide) _⟩
      rw [nodePieces, List.flatMap_append, List.forall_mem_append]
      exact ⟨fields_enclose (own _ _) (nodesPieces_fields sites written.2.1),
        fields_enclose (own _ _) (nodesPieces_fields sites written.2.2.1)⟩
  | .optional id condition branch site, written => by
      simp only [Node.everywhere_singleton, Node.childLists, List.forall_mem_singleton] at written
      rw [nodePieces]
      refine fields_enclose ?_ (nodesPieces_fields sites written.2)
      exact List.forall_mem_cons.mpr
        ⟨sites "data-zen-opt" (by decide) _,
          List.forall_mem_singleton.mpr (sites "style" (by decide) _)⟩
  | .loop id source binder body site, written => by
      simp only [Node.everywhere_singleton, Node.childLists, List.forall_mem_singleton] at written
      rw [nodePieces]
      refine fields_enclose ?_ (nodesPieces_fields sites written.2)
      rw [Field.ofLoop, List.forall_mem_cons, List.forall_mem_cons, List.forall_mem_map]
      exact ⟨sites "data-zen-loop" (by decide) _, sites "data-zen-item" (by decide) _,
        fun _ _ => sites "data-zen-index" (by decide) _⟩
  | .text .., _ | .doctype .., _ => by
      rw [nodePieces]
      exact List.forall_mem_nil _
  | .component .., _ => by
      rw [nodePieces]
      exact List.forall_mem_nil _

/-- The fields in the tags of a page are those of attributes, and those that mark dynamic sites. -/
theorem nodesPieces_fields
    (sites : ∀ name ∈ siteNames, ∀ value, holds (.valued name value)) : ∀ {nodes : List Node},
    Everywhere (fun node => ∀ attr ∈ node.attributes, holds (Field.ofAttribute attr)) nodes →
      ∀ field ∈ (nodesPieces nodes).flatMap Piece.fields, holds field
  | [], _ => by
      rw [nodesPieces]
      exact List.forall_mem_nil _
  | node :: rest, written => by
      rw [Node.everywhere_head_tail] at written
      rw [nodesPieces, List.flatMap_append, List.forall_mem_append]
      exact ⟨nodePieces_fields sites written.1, nodesPieces_fields sites written.2⟩

theorem rawPieces_fields
    (sites : ∀ name ∈ siteNames, ∀ value, holds (.valued name value)) : ∀ {nodes : List Node},
    Everywhere (fun node => ∀ attr ∈ node.attributes, holds (Field.ofAttribute attr)) nodes →
      ∀ field ∈ (rawPieces nodes).flatMap Piece.fields, holds field
  | [], _ => by
      rw [rawPieces]
      exact List.forall_mem_nil _
  | node :: rest, written => by
      rw [Node.everywhere_head_tail] at written
      have behind := rawPieces_fields sites written.2
      cases node with
      | text value site =>
          rw [rawPieces, List.flatMap_cons]
          exact behind
      | _ =>
          simp only [rawPieces, List.flatMap_append, List.forall_mem_append]
          exact ⟨nodePieces_fields sites written.1, behind⟩

end

end

/-- The field is the handler of the event whose attribute has a private name. -/
def IsHandler (attr : Attribute) (field : Field) : Prop :=
  field = Field.ofAttribute attr ∧ field.name = locationAttribute.toList ∧
    eventName? attr.name = some "loc".toList

/-- An attribute of another name is written under a private name only if it handles an event. -/
theorem ofAttribute_private {attr : Attribute} (other : attr.name ∉ privateNames)
    (hidden : String.ofList (Field.ofAttribute attr).name ∈ privateNames) :
    IsHandler attr (Field.ofAttribute attr) := by
  have leads : ∀ name ∈ privateNames, ¬"data-zen-attr-".toList <+: name.toList := by decide
  have marker (target : List Char) :
      String.ofList ("data-zen-attr-".toList ++ target) ∉ privateNames := by
    intro member
    have own := leads _ member
    have spelled : (String.ofList ("data-zen-attr-".toList ++ target)).toList =
        "data-zen-attr-".toList ++ target := String.toList_ofList
    rw [spelled] at own
    exact own (List.prefix_append _ _)
  have handler (event : List Char) (found : eventName? attr.name = some event)
      (member : String.ofList ("data-zen-".toList ++ event) ∈ privateNames) :
      event = "loc".toList := by
    have behind : ∀ name ∈ privateNames, name.toList = "data-zen-".toList ++ "loc".toList ∨
        name.toList = "data-zen-".toList ++ "orig-name".toList := by
      decide
    have either := behind _ member
    have spelled : (String.ofList ("data-zen-".toList ++ event)).toList =
        "data-zen-".toList ++ event := String.toList_ofList
    rw [spelled, List.append_cancel_left_eq, List.append_cancel_left_eq] at either
    refine either.resolve_right fun same => ?_
    have letters := eventName?_letters found
    rw [same] at letters
    revert letters
    decide
  have made : "data-zen-".toList ++ "loc".toList = locationAttribute.toList := by decide
  refine ⟨rfl, ?_⟩
  revert hidden
  unfold Field.ofAttribute formOf
  cases attr.value with
  | fixed value =>
      cases found : eventName? attr.name with
      | none =>
          have plain : String.ofList attr.name.toList ∉ privateNames := by
            rwa [String.ofList_toList]
          dsimp only
          by_cases empty : value.isEmpty = true
          · rw [if_pos empty]
            exact fun hidden => absurd hidden plain
          · rw [if_neg empty]
            exact fun hidden => absurd hidden plain
      | some event =>
          intro hidden
          obtain rfl := handler event found hidden
          exact ⟨made, rfl⟩
  | dynamic e =>
      cases found : eventName? attr.name with
      | none => exact fun hidden => absurd hidden (marker _)
      | some event =>
          dsimp only
          by_cases named : isName e.code.toList = true
          · rw [if_pos named]
            intro hidden
            obtain rfl := handler event found hidden
            exact ⟨made, rfl⟩
          · rw [if_neg named]
            exact fun hidden => absurd hidden (marker _)

/-! ## Compiled pages -/

/-- No attribute that a draft adds to its tags is in the resolved tree of a page, whatever elements
the sources write, and the tags of the page have a field of such a name only where an event of that
name is handled. -/
theorem compile_hides_names {source file : String} {library : Library} {page : Compiled}
    (discreet : Discreet source)
    (written : ∀ entry ∈ library.entries, ∃ key path text,
      Discreet text ∧ Definition.ofSource key path text = .ok entry.2)
    (ok : compile source file library = .ok page) :
    ∃ template parsed nodes registry resolution after,
      Template.parse source file {} = .ok (template, parsed) ∧
      Fragment.lower template.nodes file parsed = .ok (nodes, registry) ∧
      resolve library file nodes registry = .ok (resolution, after) ∧
      page.html.toList = (nodesPieces resolution.nodes).flatMap Piece.html ∧
      (∀ node ∈ Node.allNodesOfList resolution.nodes, ∀ attr ∈ node.attributes,
        attr.name ∉ privateNames) ∧
      ∀ field ∈ (nodesPieces resolution.nodes).flatMap Piece.fields,
        String.ofList field.name ∈ privateNames →
          ∃ node ∈ Node.allNodesOfList resolution.nodes, ∃ attr ∈ node.attributes,
            IsHandler attr field := by
  obtain ⟨template, parsed, nodes, registry, resolution, after, parse_ok, lower_ok, resolve_ok,
    html, -, -⟩ := compile_steps ok
  have unmarked : ∀ name ∈ privateNames, ownerAttribute ≠ name := by decide
  have visible : ∀ node ∈ Node.allNodesOfList resolution.nodes, ∀ attr ∈ node.attributes,
      attr.name ∉ privateNames := by
    intro node member attr listed hidden
    have definitions : ∀ entry ∈ library.entries, ∀ nodes after,
        Component.template entry.2 = .ok (nodes, after) →
          Everywhere (Node.Obeys (without attr.name hidden)) nodes := by
      intro entry there nodes after template_ok
      obtain ⟨key, path, text, clean, read⟩ := written entry there
      exact template_obeys (fun parsed => parse_without hidden clean parsed) read template_ok
    have obeys := resolve_obeys (without attr.name hidden) (unmarked attr.name hidden) definitions
      (parse_without hidden discreet parse_ok) lower_ok resolve_ok
    exact obeys.1 node member attr listed rfl
  refine ⟨template, parsed, nodes, registry, resolution, after, parse_ok, lower_ok, resolve_ok, ?_,
    visible, nodesPieces_fields ?_ ?_⟩
  · rw [html, emit, String.toList_ofList, nodesHtml_eq]
  · intro name site value hidden
    have apart : ∀ name ∈ siteNames, name ∉ privateNames := by decide
    rw [Field.valued, String.ofList_toList] at hidden
    exact absurd hidden (apart name site)
  · exact fun node member attr listed hidden =>
      ⟨node, member, attr, listed, ofAttribute_private (visible node member attr listed) hidden⟩

/-- A component around a branch, and the handler of an event whose name makes a private name. -/
theorem compile_hides_names_card :
    ∃ (definition : Definition) (page : Compiled) (nodes : List Node),
      Definition.ofSource "Card" "Card.zen" "<div><slot></slot></div>" = .ok definition ∧
      compile "<Card id=\"c\"><p onloc=\"f\">{ok && <b>hi</b>}</p></Card>" "page.zen"
        ⟨[("Card", definition)]⟩ = .ok page ∧
      page.html.toList = (nodesPieces nodes).flatMap Piece.html ∧
      ((nodesPieces nodes).flatMap Piece.fields).map (fun field : Field => String.ofList field.name) =
        ["id", "data-zen-loc", "data-zen-opt", "style"] ∧
      (∀ node ∈ Node.allNodesOfList nodes, ∀ attr ∈ node.attributes, attr.name ∉ privateNames) ∧
      ∀ field ∈ (nodesPieces nodes).flatMap Piece.fields, String.ofList field.name ∈ privateNames →
        ∃ node ∈ Node.allNodesOfList nodes, ∃ attr ∈ node.attributes, IsHandler attr field := by
  have evaluates : (do
      let definition ← Definition.ofSource "Card" "Card.zen" "<div><slot></slot></div>"
      let page ← Template.parse "<Card id=\"c\"><p onloc=\"f\">{ok && <b>hi</b>}</p></Card>"
        "page.zen" {}
      let lowered ← Fragment.lower page.1.nodes "page.zen" page.2
      let resolved ← Component.resolve ⟨[("Card", definition)]⟩ "page.zen" lowered.1 lowered.2
      let _ ← compile "<Card id=\"c\"><p onloc=\"f\">{ok && <b>hi</b>}</p></Card>" "page.zen"
        ⟨[("Card", definition)]⟩
      pure resolved.1.nodes).toOption.any
        (fun nodes : List Node =>
          ((nodesPieces nodes).flatMap Piece.fields).map (fun field : Field => String.ofList field.name) ==
            ["id", "data-zen-loc", "data-zen-opt", "style"]) = true := by
    decide +kernel
  obtain ⟨written, ok, names⟩ := exists_ok _ evaluates
  simp only [bind_eq_ok] at ok
  obtain ⟨definition, read, ⟨template, parsed⟩, parse_ok, ⟨nodes, registry⟩, lower_ok,
    ⟨resolution, after⟩, resolve_ok, page, compile_ok, ok⟩ := ok
  cases ok
  rw [beq_iff_eq] at names
  have clean : ∀ entry ∈ [("Card", definition)], ∃ key path text,
      Discreet text ∧ Definition.ofSource key path text = .ok entry.2 :=
    List.forall_mem_singleton.mpr ⟨"Card", "Card.zen", _, by decide +kernel, read⟩
  obtain ⟨template', parsed', nodes', registry', resolution', after', parse_ok', lower_ok',
    resolve_ok', html, visible, fields⟩ := compile_hides_names (by decide +kernel) clean compile_ok
  rw [parse_ok, Except.ok.injEq, Prod.mk.injEq] at parse_ok'
  obtain ⟨rfl, rfl⟩ := parse_ok'
  rw [lower_ok, Except.ok.injEq, Prod.mk.injEq] at lower_ok'
  obtain ⟨rfl, rfl⟩ := lower_ok'
  rw [resolve_ok, Except.ok.injEq, Prod.mk.injEq] at resolve_ok'
  obtain ⟨rfl, rfl⟩ := resolve_ok'
  exact ⟨definition, page, resolution.nodes, read, compile_ok, html, names, visible, fields⟩

end Page
end ReactiveTemplate
