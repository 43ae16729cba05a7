import Mathlib.Data.List.Infix
import ReactiveTemplate.Tree.Scope

/-!
# Scopes as a monoid

Adding names in two steps is adding them in one, and names that are there already change nothing.
Scopes that may be absent therefore form an idempotent monoid under merging, with the absent scope
as the identity.
-/

namespace ReactiveTemplate
namespace Scope

variable {names added : List String}

/-! ## Names that are added -/

theorem addNames_singleton (names : List String) (name : String) :
    addNames names [name] = if name ∈ names then names else names ++ [name] := by
  simp [addNames]

theorem addNames_cons (names : List String) (name : String) (added : List String) :
    addNames names (name :: added) = addNames (addNames names [name]) added := rfl

theorem addNames_append (names first second : List String) :
    addNames names (first ++ second) = addNames (addNames names first) second := by
  rw [addNames, List.foldl_append]
  rfl

theorem prefix_addNames (names added : List String) : names <+: addNames names added := by
  induction added generalizing names with
  | nil => exact List.prefix_refl names
  | cons first rest induction =>
      refine List.IsPrefix.trans ?_ (induction (addNames names [first]))
      rw [addNames_singleton]
      split
      · exact List.prefix_refl names
      · exact List.prefix_append names [first]

theorem mem_addNames {name : String} :
    name ∈ addNames names added ↔ name ∈ names ∨ name ∈ added := by
  induction added generalizing names with
  | nil => simp [addNames]
  | cons first rest induction =>
      rw [addNames_cons, induction, addNames_singleton]
      split
      · rename_i there
        simp only [List.mem_cons]
        constructor
        · rintro (old | new)
          · exact .inl old
          · exact .inr (.inr new)
        · rintro (old | rfl | new)
          · exact .inl old
          · exact .inl there
          · exact .inr new
      · rw [List.mem_append, List.mem_singleton, List.mem_cons, or_assoc]

theorem mem_names_merge {name : String} {own outer : Option Scope} :
    name ∈ Scope.names (merge own outer) ↔ name ∈ Scope.names own ∨ name ∈ Scope.names outer := by
  cases own with
  | none => simp [merge, Scope.names]
  | some own =>
      cases outer with
      | none => simp [merge, Scope.names]
      | some outer => exact mem_addNames

end Scope
end ReactiveTemplate
