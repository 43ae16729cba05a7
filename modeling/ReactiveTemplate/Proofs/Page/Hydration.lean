import ReactiveTemplate.Proofs.Component.Leftovers
import ReactiveTemplate.Proofs.Markup.Marks
import ReactiveTemplate.Proofs.Page.Reading

/-!
# Markers in the document

A page comes to life where the markers of its bindings are, so they have to be found by whoever reads
its markup as a document.  Not every marker is: the markup of a text in a list of options, or in an
element whose content is text alone, is no element of the document.  Main statement: if the elements
of a page are of the kinds that are kept wherever they stand, the document has a marker for every
binding of the page, whatever the structure of the page is and wherever its elements are moved to.
-/

namespace ReactiveTemplate
namespace Page

open Markup (Dom Plants Token TokenizerState lowered)

/-! ## Markers -/

namespace Binding

/-- The name of the attribute that marks the site of a binding. -/
def markerName (binding : Binding) : List Char :=
  match binding.kind with
  | .text => "data-zen-text".toList
  | .attr => "data-zen-attr-".toList ++ (binding.target.getD "").toList
  | .conditional => "data-zen-cond".toList
  | .optional => "data-zen-opt".toList
  | .loop => "data-zen-loop".toList

/-- The attribute that marks the site of a binding in a document, where names have small letters. -/
def marker (binding : Binding) : String × String :=
  (String.ofList (lowered binding.markerName), binding.id)

/-- The field by which the site of a binding is marked in the markup. -/
def field (binding : Binding) : Field := ⟨binding.markerName, some binding.id.toList⟩

theorem entry_field (binding : Binding) : binding.field.entry = binding.marker := by
  simp [field, Field.entry, marker]

theorem lead_marker (binding : Binding) : "data-zen-".toList <+: binding.marker.1.toList := by
  have lead : "data-zen-".toList <+: lowered "data-zen-attr-".toList := by decide
  have key_eq : binding.marker.1.toList = lowered binding.markerName := String.toList_ofList
  rw [key_eq, markerName]
  cases binding.kind with
  | attr =>
      rw [lowered, List.map_append]
      exact lead.trans (List.prefix_append _ _)
  | _ =>
      dsimp only
      decide

/-- No vocabulary has a name of its own for a marker. -/
theorem isSteadyKey_marker (binding : Binding) : Markup.isSteadyKey binding.marker.1 = true := by
  have respelled (names : List String)
      (other : ∀ name ∈ names, ¬"data-zen-".toList <+: name.toList.map Char.toLower) :
      Markup.respell names binding.marker.1 = binding.marker.1 := by
    have unfound : (names.find? fun name => name.map Char.toLower == binding.marker.1) = none := by
      rw [List.find?_eq_none]
      intro name member same
      rw [beq_iff_eq] at same
      have own := other name member
      rw [← String.toList_map, same] at own
      exact own binding.lead_marker
    rw [Markup.respell, unfound, Option.getD_none]
  have plain : binding.marker.1 ≠ "xmlns" := by
    intro same
    have lead := binding.lead_marker
    rw [same] at lead
    revert lead
    decide
  have graphics := respelled Markup.graphicsAttributes (by decide +kernel)
  have formula := respelled ["definitionURL"] (by decide +kernel)
  simp [Markup.isSteadyKey, graphics, formula, plain]

end Binding

/-- An attribute with a binding is written as the marker of the binding. -/
theorem ofAttribute_eq_field {attr : Attribute} {binding : Binding}
    (bound : attributeBinding? attr = some binding) : Field.ofAttribute attr = binding.field := by
  unfold attributeBinding? at bound
  unfold Field.ofAttribute
  split at bound
  · rename_i target e form_eq
    cases bound
    simp only [form_eq, Binding.field, Binding.markerName, Option.getD_some, String.toList_ofList]
  · cases bound

/-! ## Markup with markers -/

/-- The markup can be read as it stands, and brings the markers of the bindings into a document. -/
structure Hydrates (markup : List Char) (bindings : List Binding) : Prop where
  /-- Lines do not end with carriage returns. -/
  unix : '\r' ∉ markup
  /-- The markers are brought into a document. -/
  plants : Plants markup (bindings.map Binding.marker)

namespace Hydrates

variable {markup first second : List Char} {bindings left right : List Binding}

theorem nil : Hydrates [] [] := ⟨List.not_mem_nil, .nil⟩

theorem append (before : Hydrates first left) (after : Hydrates second right) :
    Hydrates (first ++ second) (left ++ right) := by
  refine ⟨?_, ?_⟩
  · rw [List.mem_append, not_or]
    exact ⟨before.unix, after.unix⟩
  · rw [List.map_append]
    exact before.plants.append after.plants

theorem mono (hydrates : Hydrates markup left) (part : right ⊆ left) : Hydrates markup right :=
  ⟨hydrates.unix, hydrates.plants.mono (List.map_subset _ part)⟩

/-- A piece that opens nothing is read without loss. -/
theorem of_piece {piece : Piece} (legible : piece.Legible)
    (plain : ∀ token ∈ piece.tokens, token.Plain ∧ ¬token.OpensRaw) : Hydrates piece.html [] :=
  ⟨legible.return_notMem, (Plants.of_delivers legible.delivers plain).mono (List.nil_subset _)⟩

theorem closing {tag : List Char} (named : isLegibleName tag = true) :
    Hydrates (Piece.closing tag).html [] :=
  of_piece (show (Piece.closing tag).Legible from named)
    (by simp [Piece.tokens, Token.Plain, Token.OpensRaw])

theorem text {value : List Char} (legible : isLegibleText value = true) :
    Hydrates (Piece.text value).html [] :=
  of_piece (show (Piece.text value).Legible from legible)
    (by simp [Piece.tokens, Token.Plain, Token.OpensRaw])

theorem doctype {name : List Char} (legible : isLegibleName name = true) :
    Hydrates (Piece.doctype name).html [] :=
  of_piece (show (Piece.doctype name).Legible from legible)
    (by simp [Piece.tokens, Token.Plain, Token.OpensRaw])

end Hydrates

/-! ## Tags with markers -/

/-- The name under which a tag is read. -/
def readName (tag : String) : String := String.ofList (lowered tag.toList)

/-- The tag is kept wherever it stands, and has the markers of the bindings. -/
structure Bears (tag : String) (fields : List Field) (bindings : List Binding) : Prop where
  /-- The tag is read as it was written. -/
  legible : (Piece.opening tag.toList fields).Legible
  /-- Other tags are kept in the element. -/
  plain : readName tag ∉ "plaintext" :: Markup.avoided
  /-- A tag with markers is passed over nowhere. -/
  sure : readName tag ∈ Markup.contextual → bindings = []
  /-- The markers are written. -/
  marked : ∀ binding ∈ bindings, binding.field ∈ fields

namespace Bears

variable {tag : String} {fields : List Field} {bindings inner : List Binding} {content : List Piece}

theorem markers (bears : Bears tag fields bindings) :
    bindings.map Binding.marker ⊆
      (Token.startTag ⟨readName tag, fields.map Field.entry, false⟩).marks := by
  intro entry member
  obtain ⟨binding, listed, rfl⟩ := List.mem_map.mp member
  have sure : readName tag ∉ Markup.contextual := by
    intro known
    rw [bears.sure known] at listed
    cases listed
  have unknown : ¬Markup.contextual.contains (readName tag) = true := by
    rwa [List.contains_iff_mem]
  rw [Token.marks, if_neg unknown, List.mem_filter, ← binding.entry_field]
  refine ⟨List.mem_map_of_mem (bears.marked binding listed), ?_⟩
  rw [binding.entry_field]
  exact binding.isSteadyKey_marker

/-- The tag alone brings its markers. -/
theorem opening (bears : Bears tag fields bindings) (open' : readName tag ∉ Markup.rawNames) :
    Hydrates (Piece.opening tag.toList fields).html bindings := by
  have delivers := Plants.of_delivers bears.legible.delivers
    (List.forall_mem_singleton.mpr ⟨bears.plain, open'⟩)
  refine ⟨bears.legible.return_notMem, delivers.mono ?_⟩
  rw [Piece.tokens, List.flatMap_singleton]
  exact bears.markers

/-- The element brings its markers and those of its content. -/
theorem enclose (bears : Bears tag fields bindings) (open' : readName tag ∉ Markup.rawNames)
    (hydrates : Hydrates (content.flatMap Piece.html) inner) :
    Hydrates ((Piece.enclose tag fields content).flatMap Piece.html) (bindings ++ inner) := by
  have whole := (bears.opening open').append
    (hydrates.append (Hydrates.closing bears.legible.1))
  rw [List.append_nil] at whole
  rw [Piece.enclose, List.flatMap_cons, List.flatMap_append, html_single]
  exact whole

/-- An element whose content is text alone brings its markers. -/
theorem encloseText (bears : Bears tag fields bindings) (raw : readName tag ∈ Markup.rawNames)
    (free : '<' ∉ content.flatMap Piece.html) (unix : '\r' ∉ content.flatMap Piece.html) :
    Hydrates ((Piece.enclose tag fields content).flatMap Piece.html) bindings := by
  have named : isLegibleName tag.toList = true := bears.legible.1
  have letters : tag.toList.all Char.isAlpha = true := by
    have all : (lowered tag.toList).all Char.isAlpha = true := by
      have known : ∀ name ∈ Markup.rawNames, name.toList.all Char.isAlpha = true := by decide
      have own := known _ raw
      rwa [readName, String.toList_ofList] at own
    rw [lowered, List.all_map] at all
    rw [List.all_eq_true] at all ⊢
    exact fun c member => isAlpha_of_toLower (all c member)
  have html_eq : (Piece.enclose tag fields content).flatMap Piece.html =
      (Piece.opening tag.toList fields).html ++
        (content.flatMap Piece.html ++ '<' :: '/' :: (tag.toList ++ ['>'])) := by
    rw [Piece.enclose, List.flatMap_cons, List.flatMap_append, html_single]
    rfl
  have plants := Plants.rawElement (fun s ready => bears.legible.yields ready) bears.plain
    (isLegibleName_signs named).1 letters free
  rw [html_eq]
  refine ⟨?_, plants.mono bears.markers⟩
  have tag_free := return_notMem_signs (isLegibleName_signs named).2
  have opening_free := bears.legible.return_notMem
  simp [opening_free, unix, tag_free]

end Bears

/-! ## Trees with markers -/

/-- The node is a text that can stand in an element whose content is text alone. -/
def IsContent (tag : String) : Node → Prop
  | .text value _ => holdsRawText tag = true → '<' ∉ value.toList
  | _ => False

/-- The element is one that is kept wherever it stands: it keeps the tags inside, it has bindings
only if its tag is passed over nowhere, and where its content is text alone it has no other. -/
structure Kept (tag : String) (attributes : List Attribute) (children : List Node) : Prop where
  /-- The name is proper. -/
  named : isLegibleName tag.toList = true
  /-- The attributes can be written. -/
  readable : ∀ attr ∈ attributes, LegibleAttribute attr
  /-- No attribute is written twice. -/
  distinct : (attributes.map fun attr => lowered (writtenName attr)).Nodup
  /-- The tags inside are kept. -/
  plain : readName tag ∉ "plaintext" :: Markup.avoided
  /-- The tag is passed over nowhere, or nothing is lost with it. -/
  sure : readName tag ∈ Markup.contextual → ∀ attr ∈ attributes, attributeBinding? attr = none
  /-- Where content is text alone, there are texts only. -/
  content : readName tag ∈ Markup.rawNames → ∀ child ∈ children, IsContent tag child

/-- The node can be written, and its element is kept if it is one. -/
def Hydratable : Node → Prop
  | .component .. => True
  | .element tag attributes children _ => Kept tag attributes children
  | node => Legible writtenName node

instance (tag : String) : (node : Node) → Decidable (IsContent tag node)
  | .text .. => inferInstanceAs (Decidable (_ → _))
  | .component .. | .element .. | .expression _ | .conditional .. | .optional .. | .loop ..
  | .doctype .. => inferInstanceAs (Decidable False)

instance (tag : String) (attributes : List Attribute) (children : List Node) :
    Decidable (Kept tag attributes children) :=
  decidable_of_iff (isLegibleName tag.toList = true ∧ (∀ attr ∈ attributes, LegibleAttribute attr) ∧
      (attributes.map fun attr => lowered (writtenName attr)).Nodup ∧
      readName tag ∉ "plaintext" :: Markup.avoided ∧
      (readName tag ∈ Markup.contextual → ∀ attr ∈ attributes, attributeBinding? attr = none) ∧
      (readName tag ∈ Markup.rawNames → ∀ child ∈ children, IsContent tag child))
    ⟨fun ⟨named, readable, distinct, plain, sure, content⟩ =>
        ⟨named, readable, distinct, plain, sure, content⟩,
      fun ⟨named, readable, distinct, plain, sure, content⟩ =>
        ⟨named, readable, distinct, plain, sure, content⟩⟩

instance : DecidablePred Hydratable
  | .component .. => inferInstanceAs (Decidable True)
  | .element tag attributes children _ =>
    inferInstanceAs (Decidable (Kept tag attributes children))
  | .loop .. => inferInstanceAs (Decidable (_ ∧ _ ∧ _))
  | .text .. | .expression _ | .conditional .. | .optional .. | .doctype .. =>
    inferInstanceAs (Decidable (_ = _))

theorem readName_of_isVoidElement {tag : String} (void : Markup.isVoidElement tag = true) :
    readName tag ∉ Markup.rawNames := by
  have same : readName tag = Text.asciiLowercase tag := by
    rw [readName, lowered, Text.asciiLowercase, ← String.toList_inj, String.toList_ofList,
      String.toList_map]
  have others : ∀ name ∈ Markup.voidElements, name ∉ Markup.rawNames := by decide
  rw [Markup.isVoidElement, List.contains_iff_mem] at void
  rw [same]
  exact others _ void

theorem Kept.bears {tag : String} {attributes : List Attribute} {children : List Node}
    (kept : Kept tag attributes children) :
    Bears tag (attributes.map Field.ofAttribute) (attributes.filterMap attributeBinding?) := by
  refine ⟨⟨kept.named, ?_, ?_⟩, kept.plain, ?_, ?_⟩
  · rw [List.forall_mem_map]
    exact fun attr member => (kept.readable attr member).field.1
  · rw [List.map_map]
    exact kept.distinct
  · rw [List.filterMap_eq_nil_iff]
    exact kept.sure
  · intro binding member
    obtain ⟨attr, listed, bound⟩ := List.mem_filterMap.mp member
    exact List.mem_map.mpr ⟨attr, listed, ofAttribute_eq_field bound⟩

/-- The element that marks a site brings the marker, besides those of what it holds. -/
theorem Shows.hydrates {tag : String} {fields : List Field} {content : List Piece}
    {text : List Char} {values : List String} {binding : Binding} {inner : List Binding}
    (shows : Shows (Piece.enclose tag fields []) text values)
    (known : tag ∈ ["span", "div", "template"]) (own : binding.field ∈ fields)
    (hydrates : Hydrates (content.flatMap Piece.html) inner) :
    Hydrates ((Piece.enclose tag fields content).flatMap Piece.html) (binding :: inner) := by
  have kinds : ∀ name ∈ ["span", "div", "template"],
      readName name ∉ "plaintext" :: Markup.avoided ∧ readName name ∉ Markup.contextual ∧
        readName name ∉ Markup.rawNames := by
    decide
  obtain ⟨plain, sure, open'⟩ := kinds tag known
  have bears : Bears tag fields [binding] :=
    ⟨shows.legible _ List.mem_cons_self, plain, fun passed => (sure passed).elim,
      List.forall_mem_singleton.mpr own⟩
  exact bears.enclose open' hydrates

theorem angle_notMem_escapeText (text : List Char) : '<' ∉ escapeText text := by
  have references : '<' ∉ "&amp;".toList ∧ '<' ∉ "&lt;".toList ∧ '<' ∉ "&gt;".toList := by
    decide
  intro member
  obtain ⟨c, -, written⟩ := List.mem_flatMap.mp member
  split at written
  · exact references.1 written
  split at written
  · exact references.2.1 written
  split at written
  · exact references.2.2 written
  · rename_i other _
    exact other (List.mem_singleton.mp written).symm

/-- Texts have no bindings, and are written without what would end the element around them. -/
theorem content_pieces {tag : String} {children : List Node}
    (content : ∀ child ∈ children, IsContent tag child)
    (hydratable : Node.Everywhere Hydratable children) :
    nodesBindings children = [] ∧
      ('<' ∉ (nodesPieces children).flatMap Piece.html ∧
        '\r' ∉ (nodesPieces children).flatMap Piece.html) ∧
      (holdsRawText tag = true → '<' ∉ (rawPieces children).flatMap Piece.html ∧
        '\r' ∉ (rawPieces children).flatMap Piece.html) := by
  induction children with
  | nil => simp [nodesBindings, nodesPieces, rawPieces]
  | cons child rest induction =>
      rw [List.forall_mem_cons] at content
      rw [Node.everywhere_cons] at hydratable
      obtain ⟨bindings, escaped, raw⟩ := induction content.2 hydratable.2
      cases child with
      | text value site =>
          have free : holdsRawText tag = true → '<' ∉ value.toList := content.1
          have legible : isLegibleText value.toList = true := hydratable.1.1
          have unix : '\r' ∉ value.toList := fun member =>
            (plain_of_isLegibleText legible member).1 rfl
          refine ⟨?_, ?_, fun holds => ?_⟩
          · rw [nodesBindings, nodeBindings, bindings, List.append_nil]
          · have angle := angle_notMem_escapeText value.toList
            have unix' := return_notMem_escapeText legible
            have html_eq : (Piece.text value.toList).html = escapeText value.toList := rfl
            rw [nodesPieces, nodePieces, List.singleton_append, List.flatMap_cons, html_eq]
            simp only [List.mem_append, angle, unix', escaped, or_self, not_false_eq_true, and_self]
          · have html_eq : (Piece.raw value.toList).html = value.toList := rfl
            rw [rawPieces, List.flatMap_cons, html_eq]
            simp only [List.mem_append, free holds, unix, raw holds, or_self, not_false_eq_true,
              and_self]
      | _ => exact content.1.elim

mutual

/-- The markup of a node brings the markers of its bindings. -/
theorem nodePieces_hydrates : ∀ {node : Node}, Node.Everywhere Hydratable [node] →
    Hydrates ((nodePieces node).flatMap Piece.html) (nodeBindings node)
  | .doctype name _ _ _, hydratable => by
      obtain ⟨own, -⟩ := Node.everywhere_singleton.mp hydratable
      have named : isLegibleName name.toList = true := own
      have nonempty : name.isEmpty = false := by
        rw [Bool.eq_false_iff]
        intro empty
        have blank : name = "" := by simpa using empty
        rw [blank] at named
        cases named
      rw [nodePieces, nodeBindings, nonempty, if_neg Bool.false_ne_true, html_single]
      exact Hydrates.doctype named
  | .text value site, hydratable => by
      obtain ⟨own, -⟩ := Node.everywhere_singleton.mp hydratable
      rw [nodePieces, nodeBindings, html_single]
      exact Hydrates.text own
  | .element tag attributes children site, hydratable => by
      obtain ⟨own, below⟩ := Node.everywhere_singleton.mp hydratable
      have kept : Kept tag attributes children := own
      have inside : Node.Everywhere Hydratable children := below children List.mem_cons_self
      rw [nodePieces, nodeBindings]
      by_cases void : Markup.isVoidElement tag = true
      · simp only [void, if_true, List.append_nil, html_single]
        exact kept.bears.opening (readName_of_isVoidElement void)
      rw [if_neg void, if_neg void]
      by_cases raw : readName tag ∈ Markup.rawNames
      · obtain ⟨none, escaped, written⟩ := content_pieces (kept.content raw) inside
        rw [none, List.append_nil]
        by_cases holds : holdsRawText tag = true
        · rw [if_pos holds]
          exact kept.bears.encloseText raw (written holds).1 (written holds).2
        · rw [if_neg holds]
          exact kept.bears.encloseText raw escaped.1 escaped.2
      · have ordinary : ¬holdsRawText tag = true := by
          intro holds
          have names : ∀ name ∈ ["script", "style"], readName name ∈ Markup.rawNames := by decide
          exact raw (names tag (by simpa [holdsRawText] using holds))
        rw [if_neg ordinary]
        exact kept.bears.enclose raw (nodesPieces_hydrates inside)
  | .expression e, hydratable => by
      obtain ⟨own, -⟩ := Node.everywhere_singleton.mp hydratable
      have shows : Shows (Piece.enclose "span"
          [.valued "data-zen-text" e.id.toList, .display "display: contents;"] []) []
          [e.id, "display: contents;"] :=
        shows_site (by decide) (by decide) (by decide) (by decide) own Shows.nil
      rw [nodePieces, nodeBindings]
      exact shows.hydrates (by decide) List.mem_cons_self Hydrates.nil
  | .conditional id condition consequent alternate site, hydratable => by
      obtain ⟨own, below⟩ := Node.everywhere_singleton.mp hydratable
      have first := nodesPieces_hydrates (below consequent List.mem_cons_self)
      have second :=
        nodesPieces_hydrates (below alternate (List.mem_cons_of_mem _ List.mem_cons_self))
      have shows (name style : String) (named : isLegibleText name.toList = true)
          (styled : isLegibleText style.toList = true) :
          Shows (Piece.enclose "div" (Field.ofBranch id name style) []) [] [id, name, style] :=
        shows_branch own named styled Shows.nil
      let binding : Binding := { id, kind := .conditional, expression := condition, site }
      have marked (name style : String) : binding.field ∈ Field.ofBranch id name style :=
        List.mem_cons_self
      have shown := (shows "true" "display: contents;" (by decide) (by decide)).hydrates
        (by decide) (marked _ _) first
      have hidden := (shows "false" "display: none;" (by decide) (by decide)).hydrates
        (by decide) (marked _ _) second
      rw [nodePieces, nodeBindings, List.flatMap_append]
      refine (shown.append hidden).mono ?_
      intro other member
      simp only [List.mem_append, List.mem_cons, List.not_mem_nil, or_false] at member ⊢
      tauto
  | .optional id condition branch site, hydratable => by
      obtain ⟨own, below⟩ := Node.everywhere_singleton.mp hydratable
      have inside := nodesPieces_hydrates (below branch List.mem_cons_self)
      have shows : Shows (Piece.enclose "div"
          [.valued "data-zen-opt" id.toList, .display "display: contents;"] []) []
          [id, "display: contents;"] :=
        shows_site (by decide) (by decide) (by decide) (by decide) own Shows.nil
      let binding : Binding := { id, kind := .optional, expression := condition, site }
      have marked : binding.field ∈
          [Field.valued "data-zen-opt" id.toList, .display "display: contents;"] :=
        List.mem_cons_self
      rw [nodePieces, nodeBindings]
      exact (shows.hydrates (by decide) marked inside).mono
        (List.perm_append_singleton _ _).subset
  | .loop id source binder body site, hydratable => by
      obtain ⟨⟨own, item, index⟩, below⟩ := Node.everywhere_singleton.mp hydratable
      have inside := nodesPieces_hydrates (below body List.mem_cons_self)
      have shows := shows_loop own item index Shows.nil
      have marked (binding : Binding) (looped : binding.kind = .loop) (same : binding.id = id) :
          binding.field ∈ Field.ofLoop id binder := by
        rw [Binding.field, Binding.markerName, looped, same]
        exact List.mem_cons_self
      rw [nodePieces, nodeBindings]
      exact (shows.hydrates (by decide) (marked _ rfl rfl) inside).mono
        (List.perm_append_singleton _ _).subset
  | .component .., _ => by
      rw [nodePieces, nodeBindings]
      exact Hydrates.nil

/-- The markup of a tree brings the markers of its bindings. -/
theorem nodesPieces_hydrates : ∀ {nodes : List Node}, Node.Everywhere Hydratable nodes →
    Hydrates ((nodesPieces nodes).flatMap Piece.html) (nodesBindings nodes)
  | [], _ => by
      rw [nodesPieces, nodesBindings]
      exact Hydrates.nil
  | node :: rest, hydratable => by
      obtain ⟨own, others⟩ := Node.everywhere_cons.mp hydratable
      rw [nodesPieces, nodesBindings, List.flatMap_append]
      exact (nodePieces_hydrates (Node.everywhere_singleton.mpr own)).append
        (nodesPieces_hydrates others)

end

/-! ## The document of a page -/

/-- The document that is read from the markup of a tree has a marker for every binding. -/
theorem emit_hydrates {nodes : List Node} (hydratable : Node.Everywhere Hydratable nodes)
    (unmarked : startsMarked (emit nodes).html.toList = false) :
    ∀ binding ∈ (emit nodes).bindings,
      Dom.anyCarries binding.marker (Markup.document (emit nodes).html.toList) = true := by
  have hydrates := nodesPieces_hydrates hydratable
  rw [← nodesHtml_eq] at hydrates
  have html_eq : (emit nodes).html.toList = nodesHtml nodes := String.toList_ofList
  rw [html_eq] at unmarked ⊢
  intro binding member
  rw [emit, List.mem_mergeSort] at member
  exact hydrates.plants.document (prepare_eq unmarked hydrates.unix) binding.marker
    (List.mem_map_of_mem member)

/-- A list of options, one of which is an expression. -/
def optionNodes : List Node :=
  [.element "select" [] [.element "option" [] [.expression ⟨"expr_0", "name", {}, none⟩] {}] {}]

/-- That a tree can be written is not enough: in a list of options the marker of a text is lost. -/
theorem emit_hydrates_options :
    ¬∀ nodes : List Node, Node.Everywhere (Legible writtenName) nodes →
      startsMarked (emit nodes).html.toList = false →
        ∀ binding ∈ (emit nodes).bindings,
          Dom.anyCarries binding.marker (Markup.document (emit nodes).html.toList) = true := by
  intro claimed
  let binding : Binding := { id := "expr_0", kind := .text, expression := "name", site := {} }
  have written : binding ∈ (emit optionNodes).bindings := by
    rw [emit, List.mem_mergeSort]
    decide +kernel
  have found := claimed optionNodes (by decide) (by decide +kernel) binding written
  have lost : Dom.anyCarries ("data-zen-text", "expr_0")
      (Markup.document (emit optionNodes).html.toList) = false := by
    decide +kernel
  have same : binding.marker = ("data-zen-text", "expr_0") := by decide +kernel
  rw [same, lost] at found
  cases found

/-- The markers of a compiled page are in the document that is read from its markup, one for every
binding, if the elements of the resolved tree are of the kinds that are kept wherever they stand. -/
theorem compile_hydrates {source file : String} {library : Library} {page : Compiled}
    {template : Template} {parsed registry after : Registry} {nodes : List Node}
    {resolution : Component.Resolution}
    (parse_ok : Template.parse source file {} = .ok (template, parsed))
    (lower_ok : Fragment.lower template.nodes file parsed = .ok (nodes, registry))
    (resolve_ok : Component.resolve library file nodes registry = .ok (resolution, after))
    (ok : compile source file library = .ok page)
    (hydratable : Node.Everywhere Hydratable resolution.nodes)
    (unmarked : startsMarked page.html.toList = false) :
    ∀ binding ∈ page.bindings,
      Dom.anyCarries binding.marker (Markup.document page.html.toList) = true := by
  obtain ⟨template', parsed', nodes', registry', resolution', after', parse_ok', lower_ok',
    resolve_ok', html, bindings, -⟩ := compile_steps ok
  rw [parse_ok, Except.ok.injEq, Prod.mk.injEq] at parse_ok'
  obtain ⟨rfl, rfl⟩ := parse_ok'
  rw [lower_ok, Except.ok.injEq, Prod.mk.injEq] at lower_ok'
  obtain ⟨rfl, rfl⟩ := lower_ok'
  rw [resolve_ok, Except.ok.injEq, Prod.mk.injEq] at resolve_ok'
  obtain ⟨rfl, rfl⟩ := resolve_ok'
  rw [html] at unmarked ⊢
  rw [bindings]
  exact emit_hydrates hydratable unmarked

/-- A text in a table, and a branch with an attribute. -/
theorem compile_hydrates_table :
    ∃ (page : Compiled) (nodes : List Node),
      compile "<table><tr><td>{name}</td></tr></table>{ok && <p title={hint}>now</p>}" "page.zen"
        ⟨[]⟩ = .ok page ∧
      page.html = (emit nodes).html ∧ Node.Everywhere Hydratable nodes ∧
      (page.bindings.map Binding.marker).Perm [("data-zen-text", "expr_0"),
          ("data-zen-attr-title", "expr_3"), ("data-zen-opt", "opt_2")] ∧
      ∀ binding ∈ page.bindings,
        Dom.anyCarries binding.marker (Markup.document page.html.toList) = true := by
  have evaluates : (do
      let page ← Template.parse
        "<table><tr><td>{name}</td></tr></table>{ok && <p title={hint}>now</p>}" "page.zen" {}
      let lowered ← Fragment.lower page.1.nodes "page.zen" page.2
      let resolved ← Component.resolve ⟨[]⟩ "page.zen" lowered.1 lowered.2
      let _ ← check resolved.1.nodes resolved.2 resolved.1.expectations "page.zen"
      pure resolved.1.nodes).toOption.any
        (fun nodes : List Node => decide (Node.Everywhere Hydratable nodes) &&
          (nodesBindings nodes).map Binding.marker == [("data-zen-text", "expr_0"),
            ("data-zen-attr-title", "expr_3"), ("data-zen-opt", "opt_2")] &&
          !startsMarked (nodesHtml nodes)) = true := by
    decide +kernel
  obtain ⟨written, ok, same⟩ := exists_ok _ evaluates
  simp only [bind_eq_ok] at ok
  obtain ⟨⟨template, parsed⟩, parse_ok, ⟨nodes, registry⟩, lower_ok, ⟨resolution, after⟩,
    resolve_ok, ⟨⟩, check_ok, ok⟩ := ok
  cases ok
  simp only [Bool.and_eq_true, decide_eq_true_eq, beq_iff_eq, Bool.not_eq_true'] at same
  obtain ⟨⟨hydratable, markers⟩, unmarked⟩ := same
  obtain ⟨page, compile_ok, html, bindings⟩ : ∃ page : Compiled,
      compile "<table><tr><td>{name}</td></tr></table>{ok && <p title={hint}>now</p>}" "page.zen"
          ⟨[]⟩ = .ok page ∧
        page.html = (emit resolution.nodes).html ∧
        page.bindings = (emit resolution.nodes).bindings := by
    simp only [compile, bind_eq_ok]
    exact ⟨_, ⟨(template, parsed), parse_ok, (nodes, registry), lower_ok, (resolution, after),
      resolve_ok, ⟨⟩, check_ok, rfl⟩, rfl, rfl⟩
  have perm : (page.bindings.map Binding.marker).Perm [("data-zen-text", "expr_0"),
      ("data-zen-attr-title", "expr_3"), ("data-zen-opt", "opt_2")] := by
    rw [bindings, ← markers, emit]
    exact (List.mergeSort_perm _ _).map _
  have plain : startsMarked page.html.toList = false := by
    rw [html, emit, String.toList_ofList]
    exact unmarked
  exact ⟨page, resolution.nodes, compile_ok, html, hydratable, perm,
    compile_hydrates parse_ok lower_ok resolve_ok compile_ok hydratable plain⟩

end Page
end ReactiveTemplate
