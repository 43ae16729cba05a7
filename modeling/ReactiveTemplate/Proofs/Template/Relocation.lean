import Mathlib.Logic.Equiv.Fintype
import ReactiveTemplate.Proofs.Markup.RecodedRules
import ReactiveTemplate.Proofs.Template.ChunkTokens
import ReactiveTemplate.Proofs.Template.Displacement
import ReactiveTemplate.Proofs.Template.PrivateNames

/-!
# Documents with other locations

Two texts that bring the same ordinary tokens with other locations in them describe documents that
are alike.  So do the drafts of a source that is made of chunks, wherever the source starts:
different places in it have different locations, and they are replaced one to one.
-/

namespace ReactiveTemplate
namespace Template

open Markup (Content Construction Delivers Dom Entry Recoding Store Token recoded)

/-! ## The recoding -/

/-- Locations are replaced, different ones by different ones, and nothing else is. -/
def relocating (f : String ↪ String) : Recoding where
  value key old := if key = locationAttribute then f old else old
  char := id
  injective key := by
    split
    · exact f.injective
    · exact Function.injective_id
  respelled names listed key := by
    have hidden : locationAttribute ∈ privateNames := by decide
    simp only [respell_eq_private_iff hidden listed key]
  declared := by
    have apart : ":xmlns" ≠ locationAttribute ∧ "xmlns" ≠ locationAttribute := by decide
    simp only [apart, if_false]
  hidden _ := by
    have apart : "type" ≠ locationAttribute := by decide
    simp only [apart, if_false]
  note _ := by
    have apart : "encoding" ≠ locationAttribute := by decide
    simp only [apart, if_false]
  filler _ := rfl
  lineFeed _ := Iff.rfl
  replacement := rfl

variable {f : String ↪ String}

theorem recoded_of_ne {entry : String × String} (other : entry.1 ≠ locationAttribute) :
    recoded (relocating f) entry = entry := by
  simp only [recoded, relocating, other, if_false]

theorem recoded_location (old : String) :
    recoded (relocating f) (locationAttribute, old) = (locationAttribute, f old) := by
  simp only [recoded, relocating, if_true]

theorem unplaced_recoded (attributes : List (String × String)) :
    unplaced (attributes.map (recoded (relocating f))) = unplaced attributes := by
  induction attributes with
  | nil => rfl
  | cons entry rest induction =>
      by_cases located : entry.1 = locationAttribute
      · have left : unplaced (recoded (relocating f) entry ::
            rest.map (recoded (relocating f))) =
              unplaced (rest.map (recoded (relocating f))) :=
          List.filter_cons_of_neg (by simp [located])
        have right : unplaced (entry :: rest) = unplaced rest :=
          List.filter_cons_of_neg (by simp [located])
        rw [List.map_cons, left, right, induction]
      · have left : unplaced (entry :: rest.map (recoded (relocating f))) =
            entry :: unplaced (rest.map (recoded (relocating f))) :=
          List.filter_cons_of_pos (by simp [located])
        have right : unplaced (entry :: rest) = entry :: unplaced rest :=
          List.filter_cons_of_pos (by simp [located])
        rw [List.map_cons, recoded_of_ne located, left, right, induction]

theorem alikeAll_flatMap {below below' : Nat → List Dom} {nodes : List Nat}
    (alike : ∀ node ∈ nodes, alikeAll (below node) (below' node) = true) :
    alikeAll (nodes.flatMap below) (nodes.flatMap below') = true := by
  induction nodes with
  | nil => rfl
  | cons node rest induction =>
      rw [List.forall_mem_cons] at alike
      exact alikeAll_append alike.1 (induction alike.2)

/-- A store with other locations holds the same tree with these. -/
theorem alikeAll_toDom_recode (store : Store) (depth node : Nat) :
    alikeAll (store.toDom depth node)
      ((store.recode (relocating f)).toDom depth node) = true := by
  induction depth generalizing node with
  | zero => rfl
  | succ depth induction =>
      have below (nodes : List Nat) : alikeAll (nodes.flatMap (store.toDom depth))
          (nodes.flatMap ((store.recode (relocating f)).toDom depth)) = true :=
        alikeAll_flatMap fun node _ => induction node
      simp only [Store.toDom, Store.get_recode, Entry.recode_content, Entry.recode_children]
      cases (store.get node).content with
      | root => exact below _
      | element vocabulary name attributes contents =>
          cases contents <;>
            simp [Content.recode, alikeAll, alike, unplaced_recoded, below]
      | text reversed =>
          have same : reversed.map (relocating f).char = reversed := List.map_id reversed
          simp [Content.recode, alikeAll, alike, same]
      | _ => simp [Content.recode, alikeAll, alike]

/-- Texts that bring the same ordinary tokens but for the locations describe documents that are
alike. -/
theorem document_alike {text text' : List Char}
    {tokens : List Token} (delivers : Delivers text tokens)
    (delivers' : Delivers text' (tokens.map (Token.recode (relocating f))))
    (prepared : Markup.prepare text = text) (prepared' : Markup.prepare text' = text')
    (ordinary : ∀ token ∈ tokens, token.Ordinary) :
    alikeAll (Markup.document text) (Markup.document text') = true := by
  obtain ⟨next, accepted⟩ := Construction.exists_accept ordinary {}
  have accepted' := Construction.accept_recode (ρ := relocating f) {} accepted
  rw [Construction.recode_empty] at accepted'
  rw [Markup.document_eq delivers prepared accepted,
    Markup.document_eq delivers' prepared' accepted', Construction.ending_recode, Store.finish,
    Store.finish, Store.size_recode]
  exact alikeAll_toDom_recode _ _ _

/-! ## Locations -/

/-- The numbers of lines and columns do not come back to one they have had, within so short a
text. -/
theorem add_ne_self {a : UInt32} {count : Nat} (positive : 0 < count) (short : count < 2 ^ 32) :
    a + UInt32.ofNat count ≠ a := by
  intro same
  have value := congrArg UInt32.toNat same
  have bound := a.toNat_lt
  rw [UInt32.toNat_add, UInt32.toNat_ofNat_of_lt' short] at value
  omega

theorem line_advance (location : Location) (text : List Char) :
    (location.advance text).line = location.line + UInt32.ofNat (text.count '\n') := by
  induction text generalizing location with
  | nil => simp
  | cons c rest induction =>
      rw [Location.advance_cons, induction, Location.next]
      by_cases line : c = '\n'
      · rw [if_pos line, line, List.count_cons_self, UInt32.ofNat_add, UInt32.add_assoc,
          UInt32.add_comm 1]
        rfl
      · rw [if_neg line, List.count_cons_of_ne line]

theorem column_advance {text : List Char} (single : '\n' ∉ text) (location : Location) :
    (location.advance text).column = location.column + UInt32.ofNat text.length := by
  induction text generalizing location with
  | nil => simp
  | cons c rest induction =>
      rw [List.mem_cons, not_or] at single
      rw [Location.advance_cons, induction single.2, Location.next, if_neg (Ne.symm single.1),
        List.length_cons, UInt32.ofNat_add, UInt32.add_assoc, UInt32.add_comm 1]
      rfl

/-- Different places in a text have different locations. -/
theorem advance_ne {text : List Char} (nonempty : text ≠ []) (short : text.length < 2 ^ 32)
    (location : Location) : location.advance text ≠ location := by
  intro same
  by_cases line : '\n' ∈ text
  · have moved := line_advance location text
    rw [same] at moved
    have some_line := List.count_pos_iff.mpr line
    have few_lines := List.count_le_length (a := '\n') (l := text)
    exact add_ne_self some_line (by omega) moved.symm
  · have moved := column_advance line location
    rw [same] at moved
    exact add_ne_self (List.length_pos_iff.mpr nonempty) short moved.symm

theorem numeral_injective {number number' : Nat} (same : numeral number = numeral number') :
    number = number' := by
  rw [numeral_eq, numeral_eq] at same
  rw [← Nat.ofDigitChars_ten_toDigits (n := number), same, Nat.ofDigitChars_ten_toDigits]

theorem locationText_injective : Function.Injective locationText := by
  intro location location' same
  have separate (number : Nat) (more : List Char) :
      (numeral number ++ ':' :: more).takeWhile (· != ':') = numeral number := by
    have other : (numeral number).all (· != ':') = true := by
      rw [List.all_eq_true]
      intro c member
      have digit := isDigit_of_mem_numeral member
      rw [bne_iff_ne]
      rintro rfl
      cases digit
    exact Code.Parts.takeWhile_append ⟨':', more, rfl, rfl⟩ other
  rw [locationText_eq, locationText_eq] at same
  have line := congrArg (List.takeWhile (· != ':')) same
  rw [separate, separate] at line
  rw [line, List.append_cancel_left_eq, List.cons.injEq] at same
  obtain ⟨_, _⟩ := location
  obtain ⟨_, _⟩ := location'
  simp only [Location.mk.injEq]
  exact ⟨UInt32.toNat_inj.mp (numeral_injective line),
    UInt32.toNat_inj.mp (numeral_injective same.2)⟩

/-- What a tag at a location carries. -/
def placed (location : Location) : String := String.ofList (locationText location)

/-- Locations in a text are replaced by those in the same text at another place. -/
def Moves (f : String → String) (source : List Char) (location location' : Location) : Prop :=
  ∀ lead, lead <+: source →
    f (placed (location.advance lead)) = placed (location'.advance lead)

theorem Moves.behind {first rest : List Char} {location location' : Location}
    (moves : Moves f (first ++ rest) location location') :
    Moves f rest (location.advance first) (location'.advance first) := by
  intro lead starts
  rw [← Location.advance_append, ← Location.advance_append]
  exact moves (first ++ lead) ((List.prefix_append_right_inj first).mpr starts)

/-- The places of a text that is not too long can be replaced one to one by those of the same text
at another place. -/
theorem exists_moves {source : List Char} (short : source.length < 2 ^ 32)
    (location location' : Location) :
    ∃ f : String ↪ String, Moves f source location location' := by
  have distinct (location : Location) : Function.Injective fun i : Fin (source.length + 1) =>
      placed (location.advance (source.take i)) := by
    intro i j same
    wlog order : i ≤ j generalizing i j with swapped
    · exact (swapped same.symm (le_of_not_ge order)).symm
    have locations : location.advance (source.take i) = location.advance (source.take j) :=
      locationText_injective (String.ofList_injective same)
    have between : source.take j = source.take i ++ (source.take j).drop i := by
      conv_lhs => rw [← List.take_append_drop i (source.take j)]
      rw [List.take_take, min_eq_left (show (i : Nat) ≤ j from order)]
    rw [between, Location.advance_append] at locations
    by_contra other
    have bound := j.isLt
    have apart : (i : Nat) < j := lt_of_le_of_ne order (Fin.val_ne_of_ne other)
    have length : ((source.take j).drop i).length = j - i := by
      rw [List.length_drop, List.length_take]
      omega
    refine advance_ne ?_ ?_ _ locations.symm
    · rw [ne_eq, ← List.length_eq_zero_iff, length]
      omega
    · omega
  obtain ⟨σ, moved⟩ := Equiv.Perm.exists_extending_pair _ _ (distinct location) (distinct location')
  refine ⟨σ.toEmbedding, fun lead starts => ?_⟩
  have taken := List.prefix_iff_eq_take.mp starts
  have own := moved ⟨lead.length, Nat.lt_succ_of_le starts.length_le⟩
  dsimp only at own
  rwa [← taken] at own

/-! ## Chunks -/

theorem recode_entries {name : List Char} {fields : List TagField}
    (distinct : (fieldNames name fields).Nodup) {location location' : Location}
    (moved : f (placed location) = placed location') (number : Nat) :
    (headerOf name location' number fields).map Item.entry =
      ((headerOf name location number fields).map Item.entry).map
        (recoded (relocating f)) := by
  have own (number : Nat) (fields : List TagField)
      (apart : locationAttribute.toList ∉ fields.map fun field => Markup.lowered field.name) :
      ((itemsOf number fields).map Item.entry).map (recoded (relocating f)) =
        (itemsOf number fields).map Item.entry := by
    rw [← names_itemsOf fields number] at apart
    rw [List.map_map]
    refine List.map_congr_left fun item member => recoded_of_ne ?_
    intro same
    have key : item.name = locationAttribute.toList := by
      rw [← same, Item.entry, String.toList_ofList]
    exact apart (key ▸ List.mem_map_of_mem member)
  have usage : (nameItem name).entry = recoded (relocating f) (nameItem name).entry :=
    (recoded_of_ne (by simp [Item.entry, nameItem, nameAttribute, locationAttribute])).symm
  have located : (locationItem location').entry =
      recoded (relocating f) (locationItem location).entry := by
    have key (location : Location) :
        (locationItem location).entry = (locationAttribute, placed location) := by
      simp [Item.entry, locationItem, placed]
    rw [key, key, recoded_location, moved]
  have apart : locationAttribute.toList ∉ fields.map fun field => Markup.lowered field.name := by
    rw [fieldNames, List.nodup_append] at distinct
    exact (List.nodup_cons.mp distinct.2.1).1
  rw [headerOf, headerOf]
  simp only [List.map_append, List.map_cons, located, own number fields apart]
  split
  · rw [List.map_singleton, List.map_singleton, ← usage]
  · rfl

/-- The tokens of a chunk at another place are those with the other locations. -/
theorem tokens_recode {chunk : Chunk} (sound : chunk.isSound = true)
    {location location' : Location} (moved : f (placed location) = placed location')
    (number : Nat) :
    chunk.tokens location' number =
      (chunk.tokens location number).map (Token.recode (relocating f)) := by
  cases chunk with
  | text content => simp [Chunk.tokens, Token.recode, relocating]
  | reference letter name char => rfl
  | braced code =>
      rw [Chunk.tokens, Chunk.tokens]
      cases numberFor? number code with
      | none => rfl
      | some number => rfl
  | opening name fields gap closed =>
      simp only [Chunk.isSound, Bool.and_eq_true, decide_eq_true_eq] at sound
      have entries := recode_entries sound.1.2 moved number
      rw [Chunk.tokens, Chunk.tokens, entries]
      split <;> rfl
  | closing name => rfl

/-- The tokens of chunks at another place are those with the other locations. -/
theorem tokensOf_recode {chunks : List Chunk} (sound : chunks.all Chunk.isSound = true)
    {location location' : Location} (moves : Moves f (sourceOf chunks) location location')
    (number : Nat) :
    tokensOf location' number chunks =
      (tokensOf location number chunks).map (Token.recode (relocating f)) := by
  induction chunks generalizing location location' number with
  | nil => rfl
  | cons chunk rest induction =>
      rw [List.all_cons, Bool.and_eq_true] at sound
      have source : sourceOf (chunk :: rest) = chunk.source ++ sourceOf rest := List.flatMap_cons
      rw [source] at moves
      have moved : f (placed location) = placed location' := moves [] (List.nil_prefix)
      rw [tokensOf, tokensOf, List.map_append, tokens_recode sound.1 moved,
        induction sound.2 moves.behind]

/-- The markup of chunks that start at another place describes a document that is alike. -/
theorem document_markupOf {chunks : List Chunk} (sound : chunks.all Chunk.isSound = true)
    (steady : (sourceOf chunks).all Markup.isSteady = true)
    (short : (sourceOf chunks).length < 2 ^ 32) (location location' : Location) (number : Nat) :
    alikeAll (Markup.document (markupOf location number chunks))
      (Markup.document (markupOf location' number chunks)) = true := by
  obtain ⟨f, moves⟩ := exists_moves short location location'
  have delivers := delivers_chunks sound location' number
  rw [tokensOf_recode sound moves number] at delivers
  exact document_alike (delivers_chunks sound location number) delivers
    (Markup.prepare_steady (steady_chunks steady location number))
    (Markup.prepare_steady (steady_chunks steady location' number))
    (ordinary_chunks sound location number)

end Template
end ReactiveTemplate
