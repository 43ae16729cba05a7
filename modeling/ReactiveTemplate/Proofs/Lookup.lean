import Mathlib.Data.List.Forall2

/-!
# Lists as maps

Libraries, caches and the content for slots are lists of entries with keys.  What is found under a
key is an entry, and if keys are distinct, every entry is found.  Lists whose entries are related
pair by pair stay so when they are sorted by keys that agree.
-/

namespace ReactiveTemplate

variable {κ α : Type} [BEq κ] [LawfulBEq κ] {entries : List (κ × α)} {key : κ} {value : α}

theorem mem_of_lookup (found : entries.lookup key = some value) : (key, value) ∈ entries := by
  obtain ⟨before, rest, shape, -⟩ := List.lookup_eq_some_iff.mp found
  simp [shape]

theorem lookup_of_mem (distinct : (entries.map Prod.fst).Nodup) (member : (key, value) ∈ entries) :
    entries.lookup key = some value := by
  obtain ⟨before, rest, shape⟩ := List.append_of_mem member
  refine List.lookup_eq_some_iff.mpr ⟨before, rest, shape, ?_⟩
  intro other earlier
  rw [shape, List.map_append, List.map_cons, List.nodup_append] at distinct
  have apart := distinct.2.2 other.1 (List.mem_map_of_mem earlier) key List.mem_cons_self
  simpa using apart.symm

/-- Where keys are distinct, their order does not matter. -/
theorem lookup_perm {entries' : List (κ × α)} (distinct : (entries.map Prod.fst).Nodup)
    (same : entries.Perm entries') (key : κ) : entries.lookup key = entries'.lookup key := by
  have distinct' : (entries'.map Prod.fst).Nodup := (same.map Prod.fst).nodup_iff.mp distinct
  apply Option.ext
  intro value
  constructor
  · intro found
    exact lookup_of_mem distinct' (same.mem_iff.mp (mem_of_lookup found))
  · intro found
    exact lookup_of_mem distinct (same.mem_iff.mpr (mem_of_lookup found))

/-- The entries that remain under keys of some kind. -/
theorem lookup_filter (stays : κ → Bool) (entries : List (κ × α)) (key : κ) :
    (entries.filter fun entry => stays entry.1).lookup key =
      if stays key then entries.lookup key else none := by
  induction entries with
  | nil => simp
  | cons entry rest induction =>
      obtain ⟨own, value⟩ := entry
      by_cases same : key = own
      · subst same
        cases kept : stays key <;> simp [kept, induction]
      · have differs : (key == own) = false := by simpa using same
        cases kept : stays own <;> simp [kept, List.lookup_cons, differs, induction]

/-- Lists that are related pair by pair are sorted in the same way. -/
theorem forall₂_mergeSort {α β : Type} {related : α → β → Prop} {le : α → α → Bool}
    {le' : β → β → Bool} {values : List α} {values' : List β}
    (pairs : List.Forall₂ related values values')
    (agree : ∀ {a a' b b'}, related a a' → related b b' → le a b = le' a' b') :
    List.Forall₂ related (values.mergeSort le) (values'.mergeSort le') := by
  -- both lists are projections of the list of pairs, which is sorted once
  obtain ⟨zipped, rfl, rfl⟩ : ∃ zipped : List { pair : α × β // related pair.1 pair.2 },
      values = zipped.map (·.1.1) ∧ values' = zipped.map (·.1.2) := by
    induction pairs with
    | nil => exact ⟨[], rfl, rfl⟩
    | @cons a b rest rest' own _ induction =>
        obtain ⟨zipped, rfl, rfl⟩ := induction
        exact ⟨⟨(a, b), own⟩ :: zipped, rfl, rfl⟩
  rw [← List.map_mergeSort (r := fun a b => le a.1.1 b.1.1) (fun _ _ _ _ => rfl),
    ← List.map_mergeSort (r := fun a b => le a.1.1 b.1.1) (fun a _ b _ => agree a.2 b.2),
    List.forall₂_map_left_iff, List.forall₂_map_right_iff]
  exact List.forall₂_same.mpr fun pair _ => pair.2

end ReactiveTemplate
