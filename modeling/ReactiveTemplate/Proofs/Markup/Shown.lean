import ReactiveTemplate.Proofs.Markup.Feedback
import ReactiveTemplate.Proofs.Markup.RecodedRules

/-!
# What a document shows

A document has no attribute and no character that its tokens do not have.  This is seen from the
recodings that leave the tokens as they are: they leave the document as it is, so whatever they
replace is not in it.
-/

namespace ReactiveTemplate
namespace Markup

variable {ρ : Recoding} {pair : String × String → Prop} {char : Char → Prop}

/-! ## Trees -/

mutual

/-- The attributes of all elements in a node, and the characters of all texts, are of some kind. -/
def Dom.Shows (pair : String × String → Prop) (char : Char → Prop) : Dom → Prop
  | .text content => ∀ c ∈ content.toList, char c
  | .element _ _ attributes children =>
    (∀ entry ∈ attributes, pair entry) ∧ Dom.AllShow pair char children
  | .doctype .. | .comment _ => True

/-- The same for a list of nodes. -/
def Dom.AllShow (pair : String × String → Prop) (char : Char → Prop) : List Dom → Prop
  | [] => True
  | node :: rest => Dom.Shows pair char node ∧ Dom.AllShow pair char rest

end

namespace Dom

theorem allShow_iff {nodes : List Dom} :
    AllShow pair char nodes ↔ ∀ node ∈ nodes, Shows pair char node := by
  induction nodes with
  | nil => simp [AllShow]
  | cons node rest induction => rw [AllShow, induction, List.forall_mem_cons]

theorem allShow_append {nodes more : List Dom} :
    AllShow pair char (nodes ++ more) ↔
      AllShow pair char nodes ∧ AllShow pair char more := by
  simp only [allShow_iff, List.forall_mem_append]

mutual

theorem Shows.mono {pair' : String × String → Prop} {char' : Char → Prop}
    (attributes : ∀ entry, pair entry → pair' entry) (chars : ∀ c, char c → char' c) :
    ∀ {node : Dom}, Shows pair char node → Shows pair' char' node
  | .text _, shows => fun c member => chars c (shows c member)
  | .element .., shows => ⟨fun entry member => attributes entry (shows.1 entry member),
      AllShow.mono attributes chars shows.2⟩
  | .doctype .., _ | .comment _, _ => trivial

theorem AllShow.mono {pair' : String × String → Prop} {char' : Char → Prop}
    (attributes : ∀ entry, pair entry → pair' entry) (chars : ∀ c, char c → char' c) :
    ∀ {nodes : List Dom}, AllShow pair char nodes → AllShow pair' char' nodes
  | [], _ => trivial
  | _ :: _, shows => ⟨shows.1.mono attributes chars, shows.2.mono attributes chars⟩

end

mutual

private theorem shows_any : ∀ node : Dom, Shows (fun _ => True) (fun _ => True) node
  | .text _ => fun _ _ => trivial
  | .element _ _ _ children => ⟨fun _ _ => trivial, allShow_any children⟩
  | .doctype .. | .comment _ => trivial

/-- Any document shows attributes and characters. -/
theorem allShow_any : ∀ nodes : List Dom, AllShow (fun _ => True) (fun _ => True) nodes
  | [] => trivial
  | node :: rest => ⟨shows_any node, allShow_any rest⟩

end

end Dom

/-- The attributes and the character of a token are of some kind. -/
def Token.Shows (pair : String × String → Prop) (char : Char → Prop) : Token → Prop
  | .startTag tag | .endTag tag => ∀ entry ∈ tag.attributes, pair entry
  | .character c => char c
  | .doctype _ | .comment _ | .null | .ending => True

/-! ## The store -/

/-- The recoding leaves the attribute as it is. -/
def Recoding.Keeps (ρ : Recoding) (entry : String × String) : Prop := recoded ρ entry = entry

/-- The recoding leaves the character as it is. -/
def Recoding.KeepsChar (ρ : Recoding) (c : Char) : Prop := ρ.char c = c

/-- A list is left as it is only together with its members. -/
theorem mem_of_map_eq {α : Type} {f : α → α} {list : List α} (same : list.map f = list) :
    ∀ a ∈ list, f a = a := by
  rw [← List.map_id list, List.map_map] at same
  exact List.map_inj_left.mp same

/-- A store that is left as it is shows what is left as it is. -/
theorem Store.allShow_toDom {store : Store} (same : store.recode ρ = store) (depth node : Nat) :
    Dom.AllShow ρ.Keeps ρ.KeepsChar (store.toDom depth node) := by
  induction depth generalizing node with
  | zero => trivial
  | succ depth induction =>
      have below (nodes : List Nat) :
          Dom.AllShow ρ.Keeps ρ.KeepsChar (nodes.flatMap (store.toDom depth)) := by
        rw [Dom.allShow_iff]
        intro child member
        obtain ⟨node, -, inside⟩ := List.mem_flatMap.mp member
        exact Dom.allShow_iff.mp (induction node) child inside
      have content : (store.get node).content.recode ρ = (store.get node).content := by
        rw [← Entry.recode_content, ← Store.get_recode, same]
      simp only [Store.toDom]
      cases content_eq : (store.get node).content with
      | root => exact below _
      | text reversed =>
          rw [content_eq, Content.recode, Content.text.injEq] at content
          refine ⟨fun c member => mem_of_map_eq content c ?_, trivial⟩
          simpa using member
      | element vocabulary name attributes contents =>
          rw [content_eq, Content.recode] at content
          injection content with _ _ attributes_eq _
          cases contents with
          | none => exact ⟨⟨mem_of_map_eq attributes_eq, below _⟩, trivial⟩
          | some contents => exact ⟨⟨mem_of_map_eq attributes_eq, below _⟩, trivial⟩
      | doctype | comment => simp [Dom.AllShow, Dom.Shows]

/-- A document is left as it is by what leaves its tokens as they are. -/
theorem document_shows {text : List Char} {tokens : List Token} (delivers : Delivers text tokens)
    (prepared : prepare text = text) (ordinary : ∀ token ∈ tokens, token.Ordinary)
    (kept : ∀ token ∈ tokens, token.recode ρ = token) :
    Dom.AllShow ρ.Keeps ρ.KeepsChar (document text) := by
  obtain ⟨next, accepted⟩ := Construction.exists_accept ordinary {}
  have again := Construction.accept_recode (ρ := ρ) {} accepted
  rw [Construction.recode_empty, List.map_congr_left (g := id) kept, List.map_id, accepted,
    Option.some.injEq] at again
  rw [document_eq delivers prepared accepted]
  refine Store.allShow_toDom ?_ _ _
  rw [← Construction.ending_recode, ← again]

/-! ## Kinds -/

/-- A kind of attributes and of characters that no rule brings in, and that whatever has another
attribute could have another one of as well. -/
structure Kind where
  /-- The attributes. -/
  pair : String × String → Prop
  /-- The characters. -/
  char : Char → Prop
  /-- The spelling of a key does not matter. -/
  respelled : ∀ names ∈ [graphicsAttributes, ["definitionURL"]], ∀ key value,
    pair (respell names key, value) ↔ pair (key, value)
  /-- Nor does it for the key that declares a vocabulary. -/
  declared : ∀ value, pair (":xmlns", value) ↔ pair ("xmlns", value)
  /-- What is of another kind stays so if its value goes on. -/
  longer : ∀ key value, ¬pair (key, value) → ¬pair (key, value ++ "x")
  /-- The values that rules look for are of the kind. -/
  hidden : ∀ value, value.map Char.toLower = "hidden" → pair ("type", value)
  /-- The values that rules look for are of the kind. -/
  note : ∀ value, ["text/html", "application/xhtml+xml"].contains (value.map Char.toLower) = true →
    pair ("encoding", value)
  /-- White space is of the kind. -/
  filler : ∀ c, Construction.isFiller c = true → char c
  /-- So is the character for what cannot be shown. -/
  replacement : char replacementChar

namespace Kind

variable (kind : Kind)

open Classical in
/-- The value goes on if the attribute is of another kind. -/
noncomputable def value (key old : String) : String :=
  if kind.pair (key, old) then old else old ++ "x"

open Classical in
/-- A character of another kind is replaced by a letter. -/
noncomputable def letter (c : Char) : Char :=
  if kind.char c then c else if c = 'x' then 'y' else 'x'

variable {kind}

theorem value_of_pair {key old : String} (fits : kind.pair (key, old)) :
    kind.value key old = old := if_pos fits

theorem value_of_not {key old : String} (other : ¬kind.pair (key, old)) :
    kind.value key old = old ++ "x" := if_neg other

theorem value_congr {key key' old : String}
    (same : kind.pair (key, old) ↔ kind.pair (key', old)) :
    kind.value key old = kind.value key' old := by
  by_cases fits : kind.pair (key, old)
  · rw [value_of_pair fits, value_of_pair (same.mp fits)]
  · rw [value_of_not fits, value_of_not (mt same.mpr fits)]

theorem pair_value_iff {key old : String} :
    kind.pair (key, kind.value key old) ↔ kind.pair (key, old) := by
  by_cases fits : kind.pair (key, old)
  · rw [value_of_pair fits]
  · rw [value_of_not fits]
    exact iff_of_false (kind.longer key old fits) fits

theorem value_eq_iff {key old : String} : kind.value key old = old ↔ kind.pair (key, old) := by
  by_cases fits : kind.pair (key, old)
  · exact iff_of_true (value_of_pair fits) fits
  · rw [value_of_not fits]
    refine iff_of_false (fun same => ?_) fits
    have length := congrArg (List.length ∘ String.toList) same
    simp at length

theorem letter_eq_iff {c : Char} : kind.letter c = c ↔ kind.char c := by
  unfold letter
  split
  · exact iff_of_true rfl ‹_›
  · refine iff_of_false ?_ ‹_›
    split
    · rename_i same
      rw [same]
      decide
    · exact fun same => absurd same.symm ‹_›

theorem letter_cases (c : Char) :
    kind.char c ∧ kind.letter c = c ∨
      ¬kind.char c ∧ (kind.letter c = 'x' ∨ kind.letter c = 'y') := by
  unfold letter
  split
  · exact .inl ⟨‹_›, rfl⟩
  · refine .inr ⟨‹_›, ?_⟩
    split
    · exact .inr rfl
    · exact .inl rfl

variable (kind)

/-- The recoding that leaves as they are what is of the kind, and nothing else. -/
noncomputable def recoding : Recoding where
  value := kind.value
  char := kind.letter
  injective key old old' same := by
    have both : kind.pair (key, old) ↔ kind.pair (key, old') := by
      rw [← pair_value_iff, same, pair_value_iff]
    by_cases fits : kind.pair (key, old)
    · rwa [value_of_pair fits, value_of_pair (both.mp fits)] at same
    · rw [value_of_not fits, value_of_not (mt both.mpr fits)] at same
      exact (String.append_left_inj "x").mp same
  respelled names listed key := funext fun old => value_congr (kind.respelled names listed key old)
  declared := funext fun old => value_congr (kind.declared old)
  hidden old := by
    by_cases fits : kind.pair ("type", old)
    · rw [value_of_pair fits]
    · exact iff_of_false (fun same => fits (pair_value_iff.mp (kind.hidden _ same)))
        fun same => fits (kind.hidden old same)
  note old := by
    by_cases fits : kind.pair ("encoding", old)
    · rw [value_of_pair fits]
    · exact (Bool.eq_false_iff.mpr fun same => fits (pair_value_iff.mp (kind.note _ same))).trans
        (Bool.eq_false_iff.mpr fun same => fits (kind.note old same)).symm
  filler c := by
    rcases kind.letter_cases c with ⟨-, same⟩ | ⟨other, same | same⟩
    · rw [same]
    · rw [same]
      exact (Bool.eq_false_iff.mpr (mt (kind.filler c) other)).symm
    · rw [same]
      exact (Bool.eq_false_iff.mpr (mt (kind.filler c) other)).symm
  lineFeed c := by
    rcases kind.letter_cases c with ⟨-, same⟩ | ⟨other, either⟩
    · rw [same]
    · have apart : c ≠ '\n' := by
        rintro rfl
        exact other (kind.filler '\n' rfl)
      refine iff_of_false ?_ apart
      rcases either with same | same <;>
      · rw [same]
        decide
  replacement := letter_eq_iff.mpr kind.replacement

end Kind

/-- A document has attributes and characters of the same kind as its tokens. -/
theorem document_kind (kind : Kind) {text : List Char} {tokens : List Token}
    (delivers : Delivers text tokens) (prepared : prepare text = text)
    (ordinary : ∀ token ∈ tokens, token.Ordinary)
    (fits : ∀ token ∈ tokens, token.Shows kind.pair kind.char) :
    Dom.AllShow kind.pair kind.char (document text) := by
  have kept : ∀ token ∈ tokens, token.recode kind.recoding = token := by
    intro token member
    have same {attributes : List (String × String)}
        (fit : ∀ entry ∈ attributes, kind.pair entry) :
        attributes.map (recoded kind.recoding) = attributes := by
      rw [List.map_congr_left (g := id), List.map_id]
      exact fun entry member => Prod.ext rfl (Kind.value_of_pair (fit entry member))
    have own := fits token member
    cases token with
    | startTag tag => exact congrArg Token.startTag (by rw [Tag.recode, same own])
    | endTag tag => exact congrArg Token.endTag (by rw [Tag.recode, same own])
    | character c => exact congrArg Token.character (Kind.letter_eq_iff.mpr own)
    | _ => rfl
  refine (document_shows delivers prepared ordinary kept).mono (fun entry kept => ?_) fun c kept =>
    Kind.letter_eq_iff.mp kept
  exact Kind.value_eq_iff.mp (congrArg Prod.snd kept)

end Markup
end ReactiveTemplate
