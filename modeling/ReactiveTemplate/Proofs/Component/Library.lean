import ReactiveTemplate.Proofs.Component.Resolution
import ReactiveTemplate.Proofs.Lookup

/-!
# Looking definitions up

Of the keys that are spelled like a name, the smallest one counts.  The entry it selects is the
first one under its key, so that a name always refers to a definition that its own key refers to.
Where keys are distinct there is no other entry under that key, and the order in which the entries
are gone through does not matter.
-/

namespace ReactiveTemplate
namespace Library

variable {library library' : Library} {entries : List (String × Definition)}
variable {entry : String × Definition} {name : String} {definition : Definition}

/-! ## The smallest key -/

theorem smaller_le (left right : String × Definition) :
    (smaller left right).1 ≤ left.1 ∧ (smaller left right).1 ≤ right.1 := by
  rw [smaller]
  split
  · rename_i less
    exact ⟨Std.le_of_lt less, String.le_refl _⟩
  · rename_i least
    exact ⟨String.le_refl _, String.not_lt.mp least⟩

theorem foldl_smaller_le (first : String × Definition) (rest : List (String × Definition)) :
    ∀ other ∈ first :: rest, (rest.foldl smaller first).1 ≤ other.1 := by
  induction rest generalizing first with
  | nil => simp
  | cons next rest induction =>
      have below := induction (smaller first next)
      rw [List.forall_mem_cons] at below
      obtain ⟨left, right⟩ := smaller_le first next
      rw [List.forall_mem_cons, List.forall_mem_cons, List.foldl_cons]
      exact ⟨String.le_trans below.1 left, String.le_trans below.1 right, below.2⟩

/-- No key is smaller than the smallest one. -/
theorem smallest?_le (found : smallest? entries = some entry) :
    ∀ other ∈ entries, entry.1 ≤ other.1 := by
  cases entries with
  | nil => cases found
  | cons first rest =>
      cases found
      exact foldl_smaller_le first rest

theorem lookup_foldl_smaller (first : String × Definition) (rest : List (String × Definition)) :
    (first :: rest).lookup (rest.foldl smaller first).1 = some (rest.foldl smaller first).2 := by
  induction rest generalizing first with
  | nil => rw [List.foldl_nil, List.lookup_cons, beq_self_eq_true]
  | cons next rest induction =>
      have least := foldl_smaller_le (smaller first next) rest
      have found := induction (smaller first next)
      rw [List.forall_mem_cons] at least
      rw [List.foldl_cons]
      generalize rest.foldl smaller (smaller first next) = chosen at least found ⊢
      by_cases less : next.1 < first.1
      · rw [smaller, if_pos less] at least found
        -- the entry in front has a larger key
        have other : chosen.1 ≠ first.1 := Std.ne_of_lt (Std.lt_of_le_of_lt least.1 less)
        rwa [List.lookup_cons, beq_false_of_ne other]
      · rw [smaller, if_neg less] at least found
        by_cases own : chosen.1 = first.1
        · rw [List.lookup_cons, beq_iff_eq.mpr own] at found ⊢
          exact found
        · -- the entry behind has a larger key, too
          have other : chosen.1 ≠ next.1 := by
            intro same
            have between : first.1 ≤ chosen.1 := same ▸ String.not_lt.mp less
            exact own (String.le_antisymm least.1 between)
          rw [List.lookup_cons, beq_false_of_ne own] at found ⊢
          rwa [List.lookup_cons, beq_false_of_ne other]

/-- The entry with the smallest key is the first one under that key. -/
theorem lookup_smallest? (found : smallest? entries = some entry) :
    entries.lookup entry.1 = some entry.2 := by
  cases entries with
  | nil => cases found
  | cons first rest =>
      cases found
      exact lookup_foldl_smaller first rest

/-- What a name refers to is what some key refers to. -/
theorem get?_of_lookup? (found : library.lookup? name = some definition) :
    ∃ key, library.get? key = some definition := by
  rw [lookup?, Option.or_eq_some_iff] at found
  rcases found with found | ⟨-, found⟩
  · exact ⟨name, found⟩
  · rw [Option.map_eq_some_iff] at found
    obtain ⟨entry, found, rfl⟩ := found
    have first := lookup_smallest? found
    rw [lookup_filter fun key => Text.equalIgnoringAsciiCase key name] at first
    split at first
    · exact ⟨entry.1, first⟩
    · cases first

/-! ## The order of the entries -/

theorem smallest?_eq_none : smallest? entries = none ↔ entries = [] := by
  cases entries <;> simp [smallest?]

/-- Where keys are distinct, the smallest entry does not depend on their order. -/
theorem smallest?_perm {entries' : List (String × Definition)}
    (distinct : (entries.map Prod.fst).Nodup) (same : entries.Perm entries') :
    smallest? entries = smallest? entries' := by
  cases found : smallest? entries with
  | none =>
      rw [smallest?_eq_none] at found
      rw [found] at same
      exact (smallest?_eq_none.mpr (List.nil_perm.mp same)).symm
  | some entry =>
      cases found' : smallest? entries' with
      | none =>
          rw [smallest?_eq_none.mp found', List.perm_nil] at same
          rw [same] at found
          cases found
      | some entry' =>
          have member := mem_of_lookup (lookup_smallest? found)
          have member' := same.mem_iff.mpr (mem_of_lookup (lookup_smallest? found'))
          have keys : entry.1 = entry'.1 :=
            String.le_antisymm (smallest?_le found _ member')
              (smallest?_le found' _ (same.mem_iff.mp member))
          have own := lookup_of_mem distinct member
          rw [keys, lookup_of_mem distinct member', Option.some_inj] at own
          exact congrArg some (Prod.ext keys own.symm)

/-- Where keys are distinct, what a name refers to does not depend on their order. -/
theorem lookup?_perm (distinct : (library.entries.map Prod.fst).Nodup)
    (same : library.entries.Perm library'.entries) (name : String) :
    library.lookup? name = library'.lookup? name := by
  rw [lookup?, get?, lookup_perm distinct same, lookup?, get?]
  refine congrArg (Option.or _ <| Option.map _ ·) (smallest?_perm ?_ (same.filter _))
  exact distinct.sublist (List.filter_sublist.map Prod.fst)

end Library
end ReactiveTemplate
