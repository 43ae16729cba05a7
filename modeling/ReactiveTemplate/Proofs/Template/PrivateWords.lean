import ReactiveTemplate.Proofs.Template.ChunkTokens
import ReactiveTemplate.Proofs.Template.PrivateNames

/-!
# Private words

A draft puts words of its own into the markup: the names of the attributes that it adds, and the
placeholders of code.  If a source is made of chunks, and has none of these words itself, then all
of them are read again.  None is left in the name or in the fixed value of an attribute, and texts
have the characters of the texts of the source.
-/

namespace ReactiveTemplate
namespace Template

open Markup (Delivers Dom Kind Tag Token isSteady lowered)
open Node (Everywhere)

variable {text first rest : List Char}

/-! ## Words -/

/-- The words that a draft writes, in lower case. -/
def privateWords : List String := [locationAttribute, nameAttribute, "__zenith_expr_"]

/-- None of the words is in the text, whatever the case of its letters. -/
def Hides (text : List Char) : Prop := ∀ word ∈ privateWords, ¬word.toList <:+: lowered text

instance : DecidablePred Hides := fun text =>
  inferInstanceAs (Decidable (∀ word ∈ privateWords, ¬word.toList <:+: lowered text))

namespace Hides

theorem part (hides : Hides text) {inner : List Char} (inside : inner <:+: text) : Hides inner :=
  fun word member found => hides word member (found.trans (inside.map Char.toLower))

theorem left (hides : Hides (first ++ rest)) : Hides first :=
  hides.part (List.prefix_append first rest).isInfix

theorem right (hides : Hides (first ++ rest)) : Hides rest :=
  hides.part (List.suffix_append first rest).isInfix

theorem tail {c : Char} (hides : Hides (c :: rest)) : Hides rest :=
  hides.part (List.suffix_cons c rest).isInfix

theorem congr {text' : List Char} (same : lowered text = lowered text') (hides : Hides text) :
    Hides text' := by
  unfold Hides at *
  rwa [← same]

/-- A text of characters that no word is made of. -/
theorem of_all (kind : Char → Bool)
    (other : ∀ word ∈ privateWords, word.toList.all kind = false)
    (all : (lowered text).all kind = true) : Hides text := by
  intro word member found
  have inside : word.toList.all kind = true :=
    List.all_eq_true.mpr fun c part => List.all_eq_true.mp all c (found.subset part)
  rw [other word member] at inside
  cases inside

end Hides

theorem toLower_toLower (c : Char) : c.toLower.toLower = c.toLower := by
  by_cases upper : c.val ≥ 'A'.val ∧ c.val ≤ 'Z'.val
  · have value : c.toLower.val = c.val + ('a'.val - 'A'.val) := by
      unfold Char.toLower
      rw [dif_pos upper]
    have plain : ¬(c.toLower.val ≥ 'A'.val ∧ c.toLower.val ≤ 'Z'.val) := by
      rw [value]
      have low := UInt32.le_iff_toNat_le.mp upper.1
      have high := UInt32.le_iff_toNat_le.mp upper.2
      rw [not_and, UInt32.le_iff_toNat_le, UInt32.toNat_add]
      intro _
      simp at low high ⊢
      omega
    exact dif_neg plain
  · have same : c.toLower = c := dif_neg upper
    rw [same, same]

theorem lowered_lowered (text : List Char) : lowered (lowered text) = lowered text := by
  rw [lowered, lowered, List.map_map]
  exact List.map_congr_left fun c _ => toLower_toLower c

theorem hides_lowered_iff : Hides (lowered text) ↔ Hides text :=
  ⟨Hides.congr (lowered_lowered text), Hides.congr (lowered_lowered text).symm⟩

theorem lowered_respell (names : List String) (key : String) :
    lowered (Markup.respell names key).toList = lowered key.toList := by
  unfold Markup.respell
  cases found : names.find? fun name => name.map Char.toLower == key with
  | none => rfl
  | some name =>
      have same : name.map Char.toLower = key := by simpa using List.find?_some found
      have key_eq : key.toList = lowered name.toList := by
        rw [← same, String.toList_map]
        rfl
      rw [Option.getD_some, key_eq, lowered_lowered]

/-! ## Attributes and characters that may be in the document -/

/-- The value has no word, or it has a placeholder and becomes code. -/
def Resolves (value : List Char) : Prop :=
  Hides value ∨ ∃ number, (wordPlaceholder number).toList <:+: value

/-- The attribute is private, or its name and its value have no word that stays. -/
def Passes (entry : String × String) : Prop :=
  (entry.1 ∈ privateNames ∨ Hides entry.1.toList) ∧ Resolves entry.2.toList

/-- The character is one of the given ones, or one that rules bring in. -/
def Stays (letters : List Char) (c : Char) : Prop :=
  Markup.Construction.isFiller c = true ∨ c = Markup.replacementChar ∨ c ∈ letters

theorem x_notMem_wordPlaceholder (number : Nat) : 'x' ∉ (wordPlaceholder number).toList := by
  have digit : 'x' ∉ numeral number := by
    intro member
    cases isDigit_of_mem_numeral member
  rw [toList_wordPlaceholder, List.mem_append, List.mem_append, not_or, not_or]
  exact ⟨by decide, digit, by decide⟩

theorem Resolves.shorter {value : List Char} (resolves : Resolves (value ++ ['x'])) :
    Resolves value := by
  refine resolves.imp Hides.left fun ⟨number, inside⟩ => ⟨number, ?_⟩
  refine (infix_append_cons (x_notMem_wordPlaceholder number) inside).resolve_right ?_
  intro nothing
  have empty := List.infix_nil.mp nothing
  rw [toList_wordPlaceholder] at empty
  cases empty

/-- What a template reads again, or shows. -/
def passing (letters : List Char) : Kind where
  pair := Passes
  char := Stays letters
  respelled names listed key value := by
    have private_iff : Markup.respell names key ∈ privateNames ↔ key ∈ privateNames := by
      constructor
      · intro member
        rwa [(respell_eq_private_iff member listed key).mp rfl]
      · intro member
        rwa [(respell_eq_private_iff member listed key).mpr rfl]
    have hides_iff : Hides (Markup.respell names key).toList ↔ Hides key.toList :=
      ⟨Hides.congr (lowered_respell names key), Hides.congr (lowered_respell names key).symm⟩
    rw [Passes, Passes, private_iff, hides_iff]
  declared value := by
    have words : Hides ":xmlns".toList ∧ Hides "xmlns".toList := by decide
    exact and_congr_left' (iff_of_true (.inr words.1) (.inr words.2))
  longer key value other passes := by
    refine other ⟨passes.1, Resolves.shorter ?_⟩
    have value_eq := passes.2
    rwa [String.toList_append] at value_eq
  hidden value same := by
    have key : Hides "type".toList := by decide
    have word : Hides "hidden".toList := by decide
    refine ⟨.inr key, .inl (hides_lowered_iff.mp ?_)⟩
    rwa [← same, String.toList_map] at word
  note value same := by
    have key : Hides "encoding".toList := by decide
    have words : ∀ note ∈ ["text/html", "application/xhtml+xml"], Hides note.toList := by decide
    have word := words _ (List.contains_iff_mem.mp same)
    rw [String.toList_map] at word
    exact ⟨.inr key, .inl (hides_lowered_iff.mp word)⟩
  filler c blank := .inl blank
  replacement := .inr (.inl rfl)

/-! ## Sources -/

/-- Code leaves a placeholder. -/
def ValueChunk.isFilled : ValueChunk → Bool
  | .text _ => true
  | .braced code => shows code

/-- All code in quotes leaves a placeholder. -/
def Setting.isFilled : Setting → Bool
  | quoted chunks => chunks.all ValueChunk.isFilled
  | _ => true

/-- All code in quotes leaves a placeholder. -/
def Chunk.isFilled : Chunk → Bool
  | opening _ fields _ _ => fields.all fun field => field.setting.isFilled
  | _ => true

/-- The characters that the chunk puts between tags. -/
def Chunk.letters : Chunk → List Char
  | .text content => content
  | .reference _ _ char => [char]
  | _ => []

/-! ## Tokens -/

/-- A character of a location. -/
def isPlacePart (c : Char) : Bool := c.isDigit || c == ':'

theorem hides_place (all : text.all isPlacePart = true) : Hides text := by
  have same : lowered text = text := by
    refine (List.map_congr_left fun c member => ?_).trans (List.map_id text)
    have part := List.all_eq_true.mp all c member
    rw [isPlacePart, Bool.or_eq_true, beq_iff_eq] at part
    rcases part with digit | rfl
    · rw [Char.isDigit, Bool.and_eq_true, decide_eq_true_eq, decide_eq_true_eq] at digit
      refine dif_neg fun upper => ?_
      have low := UInt32.le_iff_toNat_le.mp digit.2
      have high := UInt32.le_iff_toNat_le.mp upper.1
      simp at low high
      omega
    · rfl
  refine Hides.of_all isPlacePart (by decide) ?_
  rwa [same]

theorem all_isPlacePart_numeral (number : Nat) : (numeral number).all isPlacePart = true :=
  List.all_eq_true.mpr fun _ member =>
    Bool.or_eq_true_iff.mpr (.inl (isDigit_of_mem_numeral member))

theorem hides_locationText (location : Location) : Hides (locationText location) := by
  refine hides_place ?_
  rw [locationText_eq, List.all_append, List.all_cons, all_isPlacePart_numeral,
    all_isPlacePart_numeral]
  rfl

theorem hides_nil : Hides [] := by decide

theorem resolves_word (number? : Option Nat) : Resolves (word number?) := by
  cases number? with
  | none => exact .inl hides_nil
  | some number => exact .inr ⟨number, List.infix_rfl⟩

/-- A value in quotes is that of the source, or has a placeholder. -/
theorem valueOf_eq_or {chunks : List ValueChunk}
    (filled : (Setting.quoted chunks).isFilled = true) (number : Nat) :
    valueOf number chunks = chunks.flatMap ValueChunk.source ∨
      ∃ number', (wordPlaceholder number').toList <:+: valueOf number chunks := by
  induction chunks generalizing number with
  | nil => exact .inl rfl
  | cons chunk rest induction =>
      rw [Setting.isFilled, List.all_cons, Bool.and_eq_true] at filled
      cases chunk with
      | text content =>
          refine (induction filled.2 number).imp (fun same => ?_) fun ⟨number', inside⟩ => ?_
          · rw [valueOf, same]
            rfl
          · exact ⟨number', inside.trans (List.suffix_append content _).isInfix⟩
      | braced code =>
          refine .inr ⟨number, ?_⟩
          rw [ValueChunk.isFilled] at filled
          rw [valueOf, numberFor?, if_pos filled.1]
          exact (List.prefix_append _ _).isInfix

theorem resolves_value {setting : Setting} (filled : setting.isFilled = true)
    (hides : Hides setting.source) (number : Nat) : Resolves (setting.value number) := by
  cases setting with
  | none => exact .inl hides_nil
  | braced code => exact resolves_word _
  | quoted chunks =>
      refine (valueOf_eq_or filled number).imp_left fun same => ?_
      rw [Setting.source] at hides
      rw [Setting.value, same]
      exact hides.tail.tail.left

theorem passes_itemsOf {fields : List TagField}
    (filled : (fields.all fun field => field.setting.isFilled) = true)
    (hides : Hides (fields.flatMap TagField.source)) (number : Nat) :
    ∀ item ∈ itemsOf number fields, Passes item.entry := by
  induction fields generalizing number with
  | nil => exact List.forall_mem_nil _
  | cons field rest induction =>
      rw [List.all_cons, Bool.and_eq_true] at filled
      rw [List.flatMap_cons] at hides
      have own : Hides (field.gap ++ (field.name ++ field.setting.source)) := hides.left
      refine List.forall_mem_cons.mpr ⟨⟨.inr ?_, ?_⟩, induction filled.2 hides.right _⟩
      · rw [Item.entry, String.toList_ofList]
        exact hides_lowered_iff.mpr own.right.left
      · rw [Item.entry, String.toList_ofList]
        exact resolves_value filled.1 own.right.right number

theorem passes_headerOf {name : List Char} {fields : List TagField}
    (filled : (fields.all fun field => field.setting.isFilled) = true) (named : Hides name)
    (hides : Hides (fields.flatMap TagField.source)) (location : Location) (number : Nat) :
    ∀ item ∈ headerOf name location number fields, Passes item.entry := by
  rw [headerOf, List.forall_mem_append, List.forall_mem_cons]
  refine ⟨?_, ⟨.inl ?_, .inl ?_⟩, passes_itemsOf filled hides number⟩
  · split
    · refine List.forall_mem_singleton.mpr ⟨.inl ?_, .inl ?_⟩
      · simp [Item.entry, nameItem, privateNames]
      · simpa [Item.entry, nameItem] using named
    · exact List.forall_mem_nil _
  · simp [Item.entry, locationItem, privateNames]
  · simpa [Item.entry, locationItem] using hides_locationText location

theorem shows_tokens {chunk : Chunk} (filled : chunk.isFilled = true) (hides : Hides chunk.source)
    {letters : List Char} (part : chunk.letters ⊆ letters) (location : Location) (number : Nat) :
    ∀ token ∈ chunk.tokens location number, token.Shows Passes (Stays letters) := by
  cases chunk with
  | text content =>
      rw [Chunk.letters] at part
      exact List.forall_mem_map.mpr fun c member => .inr (.inr (part member))
  | reference letter name char =>
      rw [Chunk.letters] at part
      exact List.forall_mem_singleton.mpr (.inr (.inr (part List.mem_cons_self)))
  | braced code =>
      rw [Chunk.tokens]
      cases numberFor? number code with
      | none => exact List.forall_mem_nil _
      | some number =>
          have key : Hides numberAttribute.toList := by decide
          have value : Hides (toString number).toList :=
            hides_place (all_isPlacePart_numeral number)
          exact List.forall_mem_cons.mpr
            ⟨List.forall_mem_singleton.mpr ⟨.inr key, .inl value⟩,
              List.forall_mem_singleton.mpr (List.forall_mem_nil _)⟩
  | opening name fields gap closed =>
      rw [Chunk.source] at hides
      have header := passes_headerOf filled hides.tail.left hides.tail.right.left location number
      rw [Chunk.tokens, List.forall_mem_cons]
      refine ⟨List.forall_mem_map.mpr header, ?_⟩
      split
      · exact List.forall_mem_singleton.mpr (List.forall_mem_nil _)
      · exact List.forall_mem_nil _
  | closing name => exact List.forall_mem_singleton.mpr (List.forall_mem_nil _)

theorem shows_tokensOf {chunks : List Chunk} (filled : chunks.all Chunk.isFilled = true)
    (hides : Hides (sourceOf chunks)) {letters : List Char}
    (part : chunks.flatMap Chunk.letters ⊆ letters) (location : Location) (number : Nat) :
    ∀ token ∈ tokensOf location number chunks, token.Shows Passes (Stays letters) := by
  induction chunks generalizing location number with
  | nil => exact List.forall_mem_nil _
  | cons chunk rest induction =>
      rw [List.all_cons, Bool.and_eq_true] at filled
      rw [sourceOf, List.flatMap_cons] at hides
      rw [List.flatMap_cons, List.append_subset] at part
      rw [tokensOf, List.forall_mem_append]
      exact ⟨shows_tokens filled.1 hides.left part.1 location number,
        induction filled.2 hides.right part.2 _ _⟩

/-! ## Templates -/

theorem Piece.any_cons (c : Char) (pieces : List Piece) :
    (Piece.cons c pieces).any Piece.isPlaceholder = pieces.any Piece.isPlaceholder := by
  cases pieces with
  | nil => rfl
  | cons piece rest => cases piece <;> rfl

/-- A placeholder in a text is found, wherever it stands. -/
theorem any_isPlaceholder {opening closing : List Char} (number : Nat)
    (ends : closing.head?.map Text.isDecimalDigit = some false) (nonempty : opening ≠ [])
    (inside : opening ++ (numeral number ++ closing) <:+: text) :
    (piecesFrom opening closing 0 text).any Piece.isPlaceholder = true := by
  induction text with
  | nil =>
      have empty := List.infix_nil.mp inside
      exact absurd (List.append_eq_nil_iff.mp empty).1 nonempty
  | cons c rest induction =>
      rw [piecesFrom]
      cases found : placeholder? opening closing (c :: rest) with
      | some mark => exact Bool.or_eq_true_iff.mpr (.inl rfl)
      | none =>
          rw [Piece.any_cons]
          refine induction ((List.infix_cons_iff.mp inside).resolve_left fun starts => ?_)
          obtain ⟨more, shape⟩ := starts
          have read := placeholder?_numeral opening closing number more ends
          rw [← List.append_assoc, ← List.append_assoc, List.append_assoc opening, shape, found]
            at read
          cases read

/-- A value that stays fixed has no word. -/
theorem hides_of_dynamicValue? {captured : List Captured} {raw : String} {fallback : Location}
    (resolves : Resolves raw.toList) (fixed : dynamicValue? captured raw fallback = none) :
    Hides raw.toList := by
  refine resolves.resolve_right fun ⟨number, inside⟩ => ?_
  have found : (valuePieces raw).any Piece.isPlaceholder = true := by
    refine any_isPlaceholder number (by decide) (by decide) ?_
    rwa [toList_wordPlaceholder] at inside
  rw [dynamicValue?, found] at fixed
  dsimp only at fixed
  rw [if_neg (by simp)] at fixed
  split at fixed <;> cases fixed

/-- The attribute has none of the words, in its name or in a fixed value. -/
def HidesIn (attr : Attribute) : Prop :=
  Hides attr.name.toList ∧ ∀ value, attr.value = .fixed value → Hides value.toList

/-- The node has none of the words, in its attributes or in its code, and its text is made of the
characters. -/
def Hiding (letters : List Char) : Node → Prop
  | .element _ attributes _ _ | .component _ attributes _ _ => ∀ attr ∈ attributes, HidesIn attr
  | .text value _ => ∀ c ∈ value.toList, Stays letters c
  | .expression e => Hides e.code.toList
  | _ => True

variable {captured : List Captured} {letters : List Char}

theorem readAttributes_hides (captured : List Captured) (registry : Registry) (element : Location)
    {attributes : List (String × String)} (passes : ∀ entry ∈ attributes, Passes entry) :
    ∀ attr ∈ (readAttributes captured registry element attributes).1, HidesIn attr := by
  induction attributes generalizing registry with
  | nil => exact List.forall_mem_nil _
  | cons entry rest induction =>
      obtain ⟨own, later⟩ := List.forall_mem_cons.mp passes
      obtain ⟨key, raw⟩ := entry
      rw [readAttributes]
      split
      · exact induction registry later
      · rename_i public'
        have named : Hides key.toList :=
          own.1.resolve_left fun member => public' (by simpa [privateNames] using member)
        refine List.forall_mem_cons.mpr ⟨?_, induction _ later⟩
        rw [readAttribute]
        split
        · rename_i fixed
          refine ⟨named, fun value same => ?_⟩
          cases same
          exact hides_of_dynamicValue? own.2 fixed
        · exact ⟨named, fun value same => by cases same⟩

theorem reads_hiding (hides : ∀ code ∈ captured, Hides code.code.toList) :
    Reads captured Passes (Stays letters) (Hiding letters) where
  expression found member _ := hides found member
  text content all _ := by
    rw [Hiding, String.toList_ofList]
    exact all
  doctype _ _ _ _ := trivial
  element attributes passes registry location _ _ := by
    have header := readAttributes_hides captured registry location passes
    rw [elementNode]
    split <;> exact header

/-- A template has none of the words that its draft puts into chunks, if its source has none. -/
theorem parse_hiding {chunks : List Chunk} (sound : chunks.all Chunk.isSound = true)
    (filled : chunks.all Chunk.isFilled = true) (steady : (sourceOf chunks).all isSteady = true)
    (part : chunks.flatMap Chunk.letters ⊆ letters)
    {source file : String} {template : Template} {registry after : Registry} {draft : Draft}
    (inside : sourceOf chunks <:+: source.toList) (hides : Hides source.toList)
    (read : Draft.ofSource source.toList = .ok draft) {location : Location} {number : Nat}
    (written : draft.markup = markupOf location number chunks)
    (ok : parse source file registry = .ok (template, after)) :
    Everywhere (Hiding letters) template.nodes := by
  have codes : ∀ code ∈ draft.captured, Hides code.code.toList :=
    fun code member => hides.part (captured_inside read code member)
  have shows : Dom.AllShow Passes (Stays letters) (Markup.document draft.markup) := by
    rw [written]
    exact Markup.document_kind (passing letters)
      (delivers_chunks sound location number)
      (Markup.prepare_steady (steady_chunks steady location number))
      (ordinary_chunks sound location number)
      (shows_tokensOf filled (hides.part inside) part location number)
  exact (reads_hiding codes).parse read rfl shows ok

end Template
end ReactiveTemplate
