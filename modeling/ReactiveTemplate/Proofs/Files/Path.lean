import ReactiveTemplate.Files.Path

/-!
# Paths and their parts

The order of paths is total, so that a list without repetitions is sorted in one way only.  Joining
a name to a path adds one part to its parts, whatever slashes the path has at its end.
-/

namespace ReactiveTemplate
namespace Files

/-! ## The order of paths -/

namespace Part

theorem le_antisymm {left right : Part} (up : left.le right = true) (down : right.le left = true) :
    left = right := by
  cases left <;> cases right <;> simp_all [Part.le]
  exact String.le_antisymm up down

theorem le_trans {left middle right : Part} (first : left.le middle = true)
    (second : middle.le right = true) : left.le right = true := by
  cases left <;> cases middle <;> cases right <;> simp_all [Part.le]
  exact String.le_trans first second

end Part

theorem partsLe_total (left right : List Part) :
    partsLe left right = true ∨ partsLe right left = true := by
  induction left generalizing right with
  | nil => exact .inl (by simp [partsLe])
  | cons first rest induction =>
      cases right with
      | nil => exact .inr (by simp [partsLe])
      | cons other others =>
          by_cases same : first = other
          · subst same
            simpa [partsLe] using induction others
          · simpa [partsLe, same, Ne.symm same] using first.le_total other

theorem partsLe_antisymm {left right : List Part} (up : partsLe left right = true)
    (down : partsLe right left = true) : left = right := by
  induction left generalizing right with
  | nil =>
      cases right with
      | nil => rfl
      | cons other others => simp [partsLe] at down
  | cons first rest induction =>
      cases right with
      | nil => simp [partsLe] at up
      | cons other others =>
          by_cases same : first = other
          · subst same
            simp only [partsLe, if_true] at up down
            rw [induction up down]
          · simp only [partsLe, if_neg same, if_neg (Ne.symm same)] at up down
            exact (same (Part.le_antisymm up down)).elim

theorem partsLe_trans {left middle right : List Part} (first : partsLe left middle = true)
    (second : partsLe middle right = true) : partsLe left right = true := by
  induction left generalizing middle right with
  | nil => simp [partsLe]
  | cons a as induction =>
      cases middle with
      | nil => simp [partsLe] at first
      | cons b bs =>
          cases right with
          | nil => simp [partsLe] at second
          | cons c cs =>
              rw [partsLe] at first second ⊢
              by_cases low : a = b
              · subst low
                by_cases high : a = c
                · subst high
                  simp only [if_true] at first second ⊢
                  exact induction first second
                · simpa [high] using second
              · by_cases high : b = c
                · subst high
                  simpa [low] using first
                · rw [if_neg low] at first
                  rw [if_neg high] at second
                  have differs : a ≠ c := by
                    rintro rfl
                    exact low (Part.le_antisymm first second)
                  rw [if_neg differs]
                  exact Part.le_trans first second

/-- Sorting by paths leaves the paths in order. -/
theorem mergeSort_sorted {α : Type} (path : α → List Part) (items : List α) :
    ((items.mergeSort fun a b => partsLe (path a) (path b)).map path).Pairwise (partsLe · ·) := by
  rw [List.pairwise_map]
  refine List.pairwise_mergeSort ?_ ?_ items
  · intro a b c
    exact partsLe_trans
  · intro a b
    exact Bool.or_eq_true_iff.mpr (partsLe_total (path a) (path b))

/-! ## Cutting at slashes -/

theorem splitSlashes_ne_nil (text : List Char) : splitSlashes text ≠ [] := by
  cases text with
  | nil => simp [splitSlashes]
  | cons c rest =>
      rw [splitSlashes]
      split
      · simp
      · split <;> simp

/-- A text is cut into a first piece and the others. -/
theorem splitSlashes_eq_cons (text : List Char) :
    ∃ first rest, splitSlashes text = first :: rest :=
  List.exists_cons_of_ne_nil (splitSlashes_ne_nil text)

theorem splitSlashes_cons_slash (text : List Char) :
    splitSlashes ('/' :: text) = [] :: splitSlashes text := by
  simp [splitSlashes]

theorem splitSlashes_cons_of_ne {c : Char} {text first : List Char} {rest : List (List Char)}
    (other : c ≠ '/') (pieces : splitSlashes text = first :: rest) :
    splitSlashes (c :: text) = (c :: first) :: rest := by
  rw [splitSlashes, if_neg other, pieces]

theorem splitSlashes_of_notMem {text : List Char} (whole : '/' ∉ text) :
    splitSlashes text = [text] := by
  induction text with
  | nil => rfl
  | cons c rest induction =>
      rw [List.mem_cons, not_or] at whole
      exact splitSlashes_cons_of_ne (Ne.symm whole.1) (induction whole.2)

theorem splitSlashes_append (front : List Char) {name : List Char} (whole : '/' ∉ name) :
    splitSlashes (front ++ '/' :: name) = splitSlashes front ++ [name] := by
  induction front with
  | nil => rw [List.nil_append, splitSlashes_cons_slash, splitSlashes_of_notMem whole]; rfl
  | cons c rest induction =>
      obtain ⟨first, others, pieces⟩ := splitSlashes_eq_cons rest
      rw [pieces] at induction
      by_cases slash : c = '/'
      · subst slash
        rw [List.cons_append, splitSlashes_cons_slash, splitSlashes_cons_slash, induction, pieces]
        rfl
      · rw [List.cons_append, splitSlashes_cons_of_ne slash induction,
          splitSlashes_cons_of_ne slash pieces]
        rfl

/-- The first piece is empty if the text starts with a slash, or if it is empty. -/
theorem head?_eq_slash_iff {text first : List Char} {rest : List (List Char)}
    (pieces : splitSlashes text = first :: rest) :
    text.head? = some '/' ↔ first = [] ∧ rest ≠ [] := by
  cases text with
  | nil =>
      cases pieces
      simp
  | cons c others =>
      by_cases slash : c = '/'
      · subst slash
        rw [splitSlashes_cons_slash] at pieces
        cases pieces
        simp [splitSlashes_ne_nil]
      · obtain ⟨first', rest', pieces'⟩ := splitSlashes_eq_cons others
        rw [splitSlashes_cons_of_ne slash pieces'] at pieces
        cases pieces
        simp [slash]

/-- No piece contains a slash. -/
theorem notMem_of_mem_splitSlashes {text piece : List Char} (member : piece ∈ splitSlashes text) :
    '/' ∉ piece := by
  induction text generalizing piece with
  | nil => simp_all [splitSlashes]
  | cons c rest induction =>
      obtain ⟨first, others, pieces⟩ := splitSlashes_eq_cons rest
      rw [pieces] at induction
      by_cases slash : c = '/'
      · subst slash
        rw [splitSlashes_cons_slash, pieces] at member
        rcases List.mem_cons.mp member with rfl | behind
        · simp
        · exact induction behind
      · rw [splitSlashes_cons_of_ne slash pieces] at member
        rcases List.mem_cons.mp member with rfl | behind
        · rw [List.mem_cons, not_or]
          exact ⟨Ne.symm slash, induction List.mem_cons_self⟩
        · exact induction (List.mem_cons_of_mem _ behind)

/-! ## Names -/

/-- A text that names an entry of a directory. -/
structure ProperName (text : String) : Prop where
  /-- It stands for itself. -/
  part : laterPart? text.toList = some (.name text)
  /-- It is not cut. -/
  whole : '/' ∉ text.toList

theorem eq_of_laterPart? {piece : List Char} {text : String}
    (named : laterPart? piece = some (.name text)) : piece = text.toList := by
  rw [laterPart?] at named
  split at named
  · cases named
  · split at named
    · cases named
    · cases named
      exact String.toList_ofList.symm

theorem ProperName.of_piece {path : List Char} {piece : List Char} {text : String}
    (member : piece ∈ splitSlashes path) (named : laterPart? piece = some (.name text)) :
    ProperName text := by
  obtain rfl := eq_of_laterPart? named
  exact ⟨named, notMem_of_mem_splitSlashes member⟩

theorem ProperName.ne_nil {text : String} (proper : ProperName text) : text.toList ≠ [] := by
  intro empty
  have named := proper.part
  simp [empty, laterPart?] at named

/-- The parts that the first piece of a path stands for. -/
def leadingParts (first : List Char) (alone : Bool) : List Part :=
  if first.isEmpty && !alone then [.root]
  else if first = ['.'] then [.here]
  else (laterPart? first).toList

theorem parts_eq {path : String} {first : List Char} {rest : List (List Char)}
    (pieces : splitSlashes path.toList = first :: rest) :
    parts path = leadingParts first rest.isEmpty ++ rest.filterMap laterPart? := by
  simp only [parts, pieces, leadingParts]
  split
  · rfl
  · split <;> rfl

/-- A path with a slash: its last piece comes after all others. -/
private theorem parts_eq_append {path : String} {first last : List Char} {rest : List (List Char)}
    (pieces : splitSlashes path.toList = first :: (rest ++ [last])) :
    parts path =
      leadingParts first false ++ rest.filterMap laterPart? ++ (laterPart? last).toList := by
  have more : (rest ++ [last]).isEmpty = false := by simp
  rw [parts_eq pieces, more, List.filterMap_append, List.append_assoc]
  cases named : laterPart? last <;> simp [named]

/-- The names in a path are proper. -/
theorem properName_of_mem_parts {path text : String} (member : .name text ∈ parts path) :
    ProperName text := by
  obtain ⟨first, rest, pieces⟩ := splitSlashes_eq_cons path.toList
  have proper {piece : List Char} (inside : piece ∈ first :: rest)
      (named : laterPart? piece = some (.name text)) : ProperName text :=
    .of_piece (pieces ▸ inside) named
  rw [parts_eq pieces, List.mem_append] at member
  rcases member with lead | behind
  · rw [leadingParts] at lead
    split at lead
    · simp at lead
    · split at lead
      · simp at lead
      · exact proper List.mem_cons_self (Option.mem_toList.mp lead)
  · obtain ⟨piece, inside, named⟩ := List.mem_filterMap.mp behind
    exact proper (List.mem_cons_of_mem _ inside) named

/-! ## Joining -/

theorem eq_nil_of_splitSlashes {text : List Char} (pieces : splitSlashes text = [[]]) :
    text = [] := by
  cases text with
  | nil => rfl
  | cons c rest =>
      obtain ⟨first, others, split⟩ := splitSlashes_eq_cons rest
      by_cases slash : c = '/'
      · subst slash
        rw [splitSlashes_cons_slash, split] at pieces
        cases pieces
      · rw [splitSlashes_cons_of_ne slash split] at pieces
        cases pieces

theorem isEmpty_join {directory name : String} (proper : ProperName name) :
    (join directory name).isEmpty = false := by
  have filled : name.toList ≠ [] := proper.ne_nil
  rw [join]
  split
  · simpa [String.isEmpty_iff, ← String.toList_eq_nil_iff] using filled
  · split <;> simp_all [String.isEmpty_iff, ← String.toList_eq_nil_iff]

/-- Joining adds a part. -/
theorem parts_join {directory name : String} (given : directory.isEmpty = false)
    (proper : ProperName name) : parts (join directory name) = parts directory ++ [.name name] := by
  rw [join, if_neg (by simp [given])]
  split
  · rename_i trailing
    obtain ⟨front, shape⟩ := List.getLast?_eq_some_iff.mp trailing
    obtain ⟨first, rest, pieces⟩ := splitSlashes_eq_cons front
    have own : splitSlashes directory.toList = first :: (rest ++ [[]]) := by
      rw [shape, splitSlashes_append front (by simp), pieces]
      rfl
    have joined : splitSlashes (directory ++ name).toList = first :: (rest ++ [name.toList]) := by
      rw [String.toList_append, shape, List.append_assoc]
      exact (splitSlashes_append front proper.whole).trans (by rw [pieces]; rfl)
    rw [parts_eq_append own, parts_eq_append joined, proper.part]
    simp [laterPart?]
  · obtain ⟨first, rest, pieces⟩ := splitSlashes_eq_cons directory.toList
    have joined : splitSlashes (directory ++ "/" ++ name).toList =
        first :: (rest ++ [name.toList]) := by
      rw [String.toList_append, String.toList_append, List.append_assoc]
      exact (splitSlashes_append directory.toList proper.whole).trans (by rw [pieces]; rfl)
    -- the first piece is only empty if a slash follows
    have same : leadingParts first rest.isEmpty = leadingParts first false := by
      cases rest with
      | cons piece others => rfl
      | nil =>
          cases first with
          | cons c others => simp [leadingParts]
          | nil =>
              have empty := eq_nil_of_splitSlashes pieces
              simp [← String.toList_eq_nil_iff, empty] at given
    rw [parts_eq pieces, parts_eq_append joined, proper.part, same]
    rfl

/-- The parts of the path of a file below a directory. -/
theorem parts_foldl_join {directory : String} {names : List String}
    (given : directory.isEmpty = false) (proper : ∀ name ∈ names, ProperName name) :
    parts (names.foldl join directory) = parts directory ++ names.map .name := by
  induction names generalizing directory with
  | nil => simp
  | cons name rest induction =>
      have own : ProperName name := proper name List.mem_cons_self
      have others : ∀ name ∈ rest, ProperName name :=
        fun name member => proper name (List.mem_cons_of_mem _ member)
      rw [List.foldl_cons, induction (isEmpty_join own) others, parts_join given own]
      simp

/-- The name of a component depends on the parts of the path only. -/
theorem componentName_congr {path path' : String} (same : parts path = parts path') :
    componentName path = componentName path' := by
  rw [componentName, componentName, fileName?, fileName?, same]

end Files
end ReactiveTemplate
