import ReactiveTemplate.Proofs.Fragment.Provenance
import ReactiveTemplate.Proofs.Template.Conservation
import ReactiveTemplate.Proofs.Template.Parse
import ReactiveTemplate.Proofs.Template.Reading
import ReactiveTemplate.Proofs.Tree.Alike

/-!
# Private names

A draft adds attributes of its own to the tags of a template, and reading the template leaves them
out.  They come back only where the names are written in the source: the code of an expression is
part of the source, and the markup in it brings no attribute that is not spelled out there.
-/

namespace ReactiveTemplate

open Node (Everywhere)

namespace Template

/-- The names of the attributes that a draft adds to tags. -/
def privateNames : List String := [nameAttribute, locationAttribute]

/-- None of the names is in the text. -/
def Discreet (text : String) : Prop := ∀ name ∈ privateNames, ¬name.toList <:+: text.toList

instance (text : String) : Decidable (Discreet text) :=
  inferInstanceAs (Decidable (∀ name ∈ privateNames, ¬name.toList <:+: text.toList))

end Template

namespace Node

/-- Which names attributes may have, what texts may say, and which code may be shown: the names and
texts that are written in such code are among them. -/
structure Naming where
  /-- The names. -/
  name : String → Prop
  /-- The texts. -/
  text : String → Prop
  /-- The code. -/
  code : List Char → Prop
  /-- Parts of code that may be shown may be shown. -/
  part : ∀ {whole inner}, code whole → inner <:+: whole → code inner
  /-- The names in code. -/
  spelled : ∀ {word}, code word → name (Fragment.attributeName word)
  /-- The texts in code. -/
  written : ∀ {raw}, code raw → text (String.ofList (Markup.decodeText raw))

variable {naming : Naming} {nodes nodes' : List Node}

/-- The attributes of the node have names that they may have, it says what it may say, and its code
may be shown. -/
def Obeys (naming : Naming) : Node → Prop
  | .element _ attributes _ _ | .component _ attributes _ _ =>
    ∀ attr ∈ attributes, naming.name attr.name
  | .text value _ => naming.text value
  | .expression e => naming.code e.code.toList
  | _ => True

theorem obeys_local : Local (Obeys naming) := by
  intro node
  cases node <;> exact Iff.rfl

/-- Nodes with the same code obey the same naming. -/
theorem Alike.obeys (alike : Alike SameCode nodes nodes')
    (obeys : Everywhere (Obeys naming) nodes) : Everywhere (Obeys naming) nodes' := by
  have attrs {attributes attributes' : List Attribute}
      (alike : Attribute.Alike SameCode attributes attributes')
      (own : ∀ attr ∈ attributes, naming.name attr.name) :
      ∀ attr ∈ attributes', naming.name attr.name := by
    rw [← List.forall_mem_map (f := Attribute.name) (P := naming.name)] at own ⊢
    rwa [← alike.names_eq]
  induction alike with
  | nil => exact obeys
  | element attributes _ _ below behind | component attributes _ _ below behind =>
      simp only [everywhere_cons, childLists, List.forall_mem_singleton] at obeys ⊢
      exact ⟨⟨attrs attributes obeys.1.1, below obeys.1.2⟩, behind obeys.2⟩
  | optional _ _ _ below behind | loop _ _ _ below behind =>
      simp only [everywhere_cons, childLists, List.forall_mem_singleton] at obeys ⊢
      exact ⟨⟨trivial, below obeys.1.2⟩, behind obeys.2⟩
  | conditional _ _ _ _ left right behind =>
      simp only [everywhere_cons, childLists, List.forall_mem_cons] at obeys ⊢
      exact ⟨⟨trivial, left obeys.1.2.1, right obeys.1.2.2.1, obeys.1.2.2.2⟩,
        behind obeys.2⟩
  | expression same _ behind =>
      rw [everywhere_cons] at obeys ⊢
      refine ⟨⟨?_, obeys.1.2⟩, behind obeys.2⟩
      rw [Obeys, same]
      exact obeys.1.1
  | text _ behind =>
      rw [everywhere_cons] at obeys ⊢
      exact ⟨obeys.1, behind obeys.2⟩
  | doctype _ behind =>
      rw [everywhere_cons] at obeys ⊢
      exact ⟨⟨trivial, obeys.1.2⟩, behind obeys.2⟩

end Node

/-! ## Names in a template -/

namespace Template

variable {name : String} {captured : List Captured} {registry : Registry}

/-- A private name is spelled in code as it is in the document. -/
theorem eq_toList_of_attributeName {word : List Char} (hidden : name ∈ privateNames)
    (spelled : Fragment.attributeName word = name) : word = name.toList := by
  have other : ∀ name ∈ privateNames,
      name ≠ "class" ∧ name ≠ "for" ∧ name.toList.head? ≠ some 'o' := by
    decide
  obtain ⟨notClass, notFor, start⟩ := other name hidden
  unfold Fragment.attributeName at spelled
  split at spelled
  · rw [← spelled] at start
    split at start
    · rw [String.toList_ofList] at start
      exact absurd rfl start
    · rw [String.toList_ofList] at start
      exact absurd rfl start
  · dsimp only at spelled
    split at spelled
    · exact absurd spelled.symm notClass
    split at spelled
    · exact absurd spelled.symm notFor
    · rw [← spelled, String.toList_ofList]

/-- No rule respells a private name, or spells another name like it. -/
theorem respell_eq_private_iff (hidden : name ∈ privateNames) {names : List String}
    (listed : names ∈ [Markup.graphicsAttributes, ["definitionURL"]]) (key : String) :
    Markup.respell names key = name ↔ key = name := by
  have apart : ∀ names ∈ [Markup.graphicsAttributes, ["definitionURL"]], ∀ own ∈ privateNames,
      own ∉ names ∧ ∀ name ∈ names, name.toList.map Char.toLower ≠ own.toList := by
    decide +kernel
  obtain ⟨absent, other⟩ := apart names listed name hidden
  refine Markup.respell_eq_iff absent (fun same member lowered => other same member ?_) key
  rw [← lowered, String.toList_map]

/-- Any other name may be used, any text, and any code without the private name. -/
def without (name : String) (hidden : name ∈ privateNames) : Node.Naming where
  name other := other ≠ name
  text _ := True
  code text := ¬name.toList <:+: text
  part absent inside found := absent (found.trans inside)
  spelled absent same := absent (eq_toList_of_attributeName hidden same ▸ List.infix_rfl)
  written _ := trivial

/-- The code that is taken out of a source is part of the source. -/
theorem Draft.Follows.inside {start : Location} {source : List Char} {codes : List Captured}
    (follows : Draft.Follows start source codes) :
    ∀ code ∈ codes, code.code.toList <:+: source := by
  induction codes generalizing start source with
  | nil => exact List.forall_mem_nil _
  | cons code others induction =>
      obtain ⟨gap, tail, rfl, -, -, later⟩ := follows
      have behind : tail <:+: gap ++ (code.code.toList ++ tail) :=
        ((List.suffix_append _ tail).trans (List.suffix_append gap _)).isInfix
      exact List.forall_mem_cons.mpr ⟨⟨gap, tail, List.append_assoc ..⟩,
        fun other member => (induction later other member).trans behind⟩

theorem captured_inside {source : List Char} {draft : Draft}
    (read : Draft.ofSource source = .ok draft) :
    ∀ code ∈ draft.captured, code.code.toList <:+: source := by
  obtain ⟨html, codes, -, captured, follows, -⟩ := Draft.runFrom_delivers read
  rw [captured]
  exact follows.inside

theorem readAttributes_public (captured : List Captured) (registry : Registry)
    (element : Location) (attributes : List (String × String)) :
    ∀ attr ∈ (readAttributes captured registry element attributes).1,
      attr.name ∉ privateNames := by
  induction attributes generalizing registry with
  | nil => exact List.forall_mem_nil _
  | cons entry rest induction =>
      obtain ⟨own, raw⟩ := entry
      rw [readAttributes]
      split
      · exact induction registry
      · rename_i public'
        have kept : (readAttribute captured registry element own raw).1.name = own := by
          rw [readAttribute]
          split <;> rfl
        have other : own ∉ privateNames := by simpa [privateNames] using public'
        exact List.forall_mem_cons.mpr ⟨kept.symm ▸ other, induction _⟩

theorem reads_without (hidden : name ∈ privateNames)
    (absent : ∀ code ∈ captured, ¬name.toList <:+: code.code.toList) :
    Reads captured (fun _ => True) (fun _ => True) (Node.Obeys (without name hidden)) where
  expression found member _ := absent found member
  text _ _ _ := trivial
  doctype _ _ _ _ := trivial
  element attributes _ registry location _ _ := by
    have header : ∀ attr ∈ (readAttributes captured registry location attributes).1,
        attr.name ≠ name := fun attr member same =>
      readAttributes_public captured registry location attributes attr member (same ▸ hidden)
    rw [elementNode]
    split <;> exact header

/-- Attributes that a draft has added are left out of the template. -/
theorem parse_without (hidden : name ∈ privateNames) {source file : String} {template : Template}
    {after : Registry} (discreet : Discreet source)
    (ok : parse source file registry = .ok (template, after)) :
    Everywhere (Node.Obeys (without name hidden)) template.nodes := by
  obtain ⟨draft, read⟩ := exists_draft ok
  have absent : ∀ code ∈ draft.captured, ¬name.toList <:+: code.code.toList :=
    fun code member inside => discreet name hidden
      (inside.trans (captured_inside read code member))
  exact (reads_without hidden absent).parse read rfl (Markup.Dom.allShow_any _) ok

end Template

/-! ## Names in code -/

namespace Fragment

variable {scope : Option Scope} {registry after : Registry} {location : Location}

/-- The names of attributes are spelled out in the tag that they are read from. -/
theorem readHeader_names {skip : Nat} {text : List Char} {header : Header}
    (ok : readHeader scope registry location skip text = .ok header) :
    ∀ attr ∈ header.attributes, ∃ word, word <:+: text ∧ attr.name = attributeName word := by
  have further (c : Char) {rest : List Char} {attributes : List Attribute}
      (names : ∀ attr ∈ attributes, ∃ word, word <:+: rest ∧ attr.name = attributeName word) :
      ∀ attr ∈ attributes, ∃ word, word <:+: c :: rest ∧ attr.name = attributeName word := by
    intro attr member
    obtain ⟨word, inside, spelled⟩ := names attr member
    exact ⟨word, inside.trans (List.suffix_cons c rest).isInfix, spelled⟩
  fun_induction readHeader scope registry location skip text generalizing header with
  | case1 | case4 | case5 =>
      cases ok
      exact List.forall_mem_nil _
  | case2 | case9 =>
      rename_i later inner induction
      have names := induction inner
      cases ok
      exact further _ names
  | case7 =>
      rename_i read read_ok later inner induction
      have names := induction inner
      cases ok
      refine List.forall_mem_cons.mpr ⟨⟨_, ?_, rfl⟩, further _ names⟩
      exact ((List.prefix_cons_inj _).mpr (List.takeWhile_prefix _)).isInfix
  | case3 | case6 | case8 | case10 => cases ok

/-- What is read from code that may be shown obeys the naming. -/
theorem grounds_obeys (naming : Node.Naming) : Grounds (Node.Obeys naming) naming.code where
  isLocal := Node.obeys_local
  part := naming.part
  text fine _ := naming.written fine
  expression := Iff.rfl
  read {code word attributes} fine from_code children site := by
    obtain ⟨scope, registry, location, rest, stop, header, starts, -, -, -, header_ok, rfl⟩ :=
      from_code
    have inside : (rest.take (stop - 1)).drop word.length <:+: code :=
      (((List.drop_suffix _ _).isInfix.trans (List.take_prefix _ rest).isInfix).trans
        (List.suffix_cons '<' rest).isInfix).trans starts
    have names : ∀ attr ∈ header.attributes, naming.name attr.name := by
      intro attr member
      obtain ⟨spelled, part, own⟩ := readHeader_names header_ok attr member
      rw [own]
      exact naming.spelled (naming.part fine (part.trans inside))
    rw [elementNode]
    split <;> exact names
  fragment {node} made := by
    cases node with
    | conditional | optional | loop => exact trivial
    | _ => cases made

end Fragment
end ReactiveTemplate
