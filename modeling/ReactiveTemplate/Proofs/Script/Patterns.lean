import ReactiveTemplate.Proofs.Tree.Expressions
import ReactiveTemplate.Script.Term

/-!
# The names of patterns

A pattern binds all names that occur in it.  The names that are collected from it are only those
outside of defaults: a pattern that has a value for the case that there is none is passed over with
everything in it.
-/

namespace ReactiveTemplate
namespace Script

mutual

/-- The names that a pattern binds outside of defaults, in order. -/
def Pattern.plainNames : Pattern → List String
  | .name bound => [bound]
  | .object properties rest => plainNamesOfList properties ++ plainNamesOfOption rest
  | .array elements rest => plainNamesOfElements elements ++ plainNamesOfOption rest
  | .withDefault _ => []
  | .computed pattern => pattern.plainNames

/-- The names outside of defaults of a list of patterns. -/
def Pattern.plainNamesOfList : List Pattern → List String
  | [] => []
  | pattern :: rest => pattern.plainNames ++ plainNamesOfList rest

/-- The names outside of defaults of the elements of a list pattern. -/
def Pattern.plainNamesOfElements : List (Option Pattern) → List String
  | [] => []
  | element :: rest => plainNamesOfOption element ++ plainNamesOfElements rest

/-- The names outside of defaults of a pattern that may be absent. -/
def Pattern.plainNamesOfOption : Option Pattern → List String
  | none => []
  | some pattern => pattern.plainNames

end

mutual

/-- No part of the pattern has a default. -/
def Pattern.isPlain : Pattern → Bool
  | .name _ => true
  | .object properties rest => areAllPlain properties && isPlainOption rest
  | .array elements rest => areElementsPlain elements && isPlainOption rest
  | .withDefault _ => false
  | .computed pattern => pattern.isPlain

/-- No pattern of a list has a default. -/
def Pattern.areAllPlain : List Pattern → Bool
  | [] => true
  | pattern :: rest => pattern.isPlain && areAllPlain rest

/-- No element of a list pattern has a default. -/
def Pattern.areElementsPlain : List (Option Pattern) → Bool
  | [] => true
  | element :: rest => isPlainOption element && areElementsPlain rest

/-- A pattern that may be absent has no default. -/
def Pattern.isPlainOption : Option Pattern → Bool
  | none => true
  | some pattern => pattern.isPlain

end

/-! ## Lists of names, each once -/

/-- What is added are the new names, each at its first occurrence. -/
theorem addNames_eq_append (names added : List String) :
    Scope.addNames names added = names ++ (added.removeAll names).eraseDups := by
  induction added generalizing names with
  | nil => simp [Scope.addNames, List.removeAll]
  | cons first rest ih =>
    rw [Scope.addNames, List.foldl_cons]
    refine (ih _).trans ?_
    by_cases there : first ∈ names
    · simp [there, List.removeAll]
    · simp [there, List.removeAll, List.eraseDups_cons, List.filter_filter, Bool.and_comm,
        beq_eq_decide]

theorem nodup_addNames {names : List String} (nodup : names.Nodup) (added : List String) :
    (Scope.addNames names added).Nodup := by
  induction added generalizing names with
  | nil => exact nodup
  | cons first rest ih =>
    refine ih ?_
    by_cases there : first ∈ names
    · simpa [there] using nodup
    · simpa [there] using nodup.concat there

/-! ## The names of a pattern -/

mutual

/-- Exactly the names outside of defaults are collected. -/
theorem Pattern.addNames_eq :
    ∀ (pattern : Pattern) (names : List String),
      pattern.addNames names = Scope.addNames names pattern.plainNames
  | .name bound, names => by rw [addNames, plainNames, Scope.addNames, List.foldl_cons, List.foldl_nil]
  | .object properties rest, names => by
    rw [addNames, plainNames, Scope.addNames_append, addNamesOfList_eq, addNamesOfOption_eq]
  | .array elements rest, names => by
    rw [addNames, plainNames, Scope.addNames_append, addNamesOfElements_eq, addNamesOfOption_eq]
  | .withDefault _, names => by rw [addNames, plainNames, Scope.addNames, List.foldl_nil]
  | .computed pattern, names => by rw [addNames, plainNames, pattern.addNames_eq]

theorem Pattern.addNamesOfList_eq :
    ∀ (patterns : List Pattern) (names : List String),
      addNamesOfList patterns names = Scope.addNames names (plainNamesOfList patterns)
  | [], names => by rw [addNamesOfList, plainNamesOfList, Scope.addNames, List.foldl_nil]
  | pattern :: rest, names => by
    rw [addNamesOfList, plainNamesOfList, Scope.addNames_append, pattern.addNames_eq,
      addNamesOfList_eq]

theorem Pattern.addNamesOfElements_eq :
    ∀ (elements : List (Option Pattern)) (names : List String),
      addNamesOfElements elements names = Scope.addNames names (plainNamesOfElements elements)
  | [], names => by rw [addNamesOfElements, plainNamesOfElements, Scope.addNames, List.foldl_nil]
  | element :: rest, names => by
    rw [addNamesOfElements, plainNamesOfElements, Scope.addNames_append, addNamesOfOption_eq,
      addNamesOfElements_eq]

theorem Pattern.addNamesOfOption_eq :
    ∀ (pattern : Option Pattern) (names : List String),
      addNamesOfOption pattern names = Scope.addNames names (plainNamesOfOption pattern)
  | none, names => by rw [addNamesOfOption, plainNamesOfOption, Scope.addNames, List.foldl_nil]
  | some pattern, names => by rw [addNamesOfOption, plainNamesOfOption, pattern.addNames_eq]

end

mutual

/-- The names outside of defaults are among all names. -/
theorem Pattern.plainNames_sublist :
    ∀ pattern : Pattern, pattern.plainNames.Sublist pattern.names
  | .name bound => by rw [plainNames, names]
  | .object properties rest => by
    rw [plainNames, names]
    exact (plainNamesOfList_sublist properties).append (plainNamesOfOption_sublist rest)
  | .array elements rest => by
    rw [plainNames, names]
    exact (plainNamesOfElements_sublist elements).append (plainNamesOfOption_sublist rest)
  | .withDefault _ => List.nil_sublist _
  | .computed pattern => by
    rw [plainNames, names]
    exact pattern.plainNames_sublist

theorem Pattern.plainNamesOfList_sublist :
    ∀ patterns : List Pattern, (plainNamesOfList patterns).Sublist (namesOfList patterns)
  | [] => by rw [plainNamesOfList, namesOfList]
  | pattern :: rest => by
    rw [plainNamesOfList, namesOfList]
    exact pattern.plainNames_sublist.append (plainNamesOfList_sublist rest)

theorem Pattern.plainNamesOfElements_sublist :
    ∀ elements : List (Option Pattern),
      (plainNamesOfElements elements).Sublist (namesOfElements elements)
  | [] => by rw [plainNamesOfElements, namesOfElements]
  | element :: rest => by
    rw [plainNamesOfElements, namesOfElements]
    exact (plainNamesOfOption_sublist element).append (plainNamesOfElements_sublist rest)

theorem Pattern.plainNamesOfOption_sublist :
    ∀ pattern : Option Pattern, (plainNamesOfOption pattern).Sublist (namesOfOption pattern)
  | none => by rw [plainNamesOfOption, namesOfOption]
  | some pattern => by
    rw [plainNamesOfOption, namesOfOption]
    exact pattern.plainNames_sublist

end

mutual

/-- Without defaults these are all names. -/
theorem Pattern.plainNames_eq :
    ∀ pattern : Pattern, pattern.isPlain = true → pattern.plainNames = pattern.names
  | .name bound, _ => by rw [plainNames, names]
  | .object properties rest, plain => by
    rw [isPlain, Bool.and_eq_true] at plain
    rw [plainNames, names, plainNamesOfList_eq properties plain.1,
      plainNamesOfOption_eq rest plain.2]
  | .array elements rest, plain => by
    rw [isPlain, Bool.and_eq_true] at plain
    rw [plainNames, names, plainNamesOfElements_eq elements plain.1,
      plainNamesOfOption_eq rest plain.2]
  | .withDefault _, plain => by rw [isPlain] at plain; cases plain
  | .computed pattern, plain => by
    rw [isPlain] at plain
    rw [plainNames, names, pattern.plainNames_eq plain]

theorem Pattern.plainNamesOfList_eq :
    ∀ patterns : List Pattern, areAllPlain patterns = true →
      plainNamesOfList patterns = namesOfList patterns
  | [], _ => by rw [plainNamesOfList, namesOfList]
  | pattern :: rest, plain => by
    rw [areAllPlain, Bool.and_eq_true] at plain
    rw [plainNamesOfList, namesOfList, pattern.plainNames_eq plain.1,
      plainNamesOfList_eq rest plain.2]

theorem Pattern.plainNamesOfElements_eq :
    ∀ elements : List (Option Pattern), areElementsPlain elements = true →
      plainNamesOfElements elements = namesOfElements elements
  | [], _ => by rw [plainNamesOfElements, namesOfElements]
  | element :: rest, plain => by
    rw [areElementsPlain, Bool.and_eq_true] at plain
    rw [plainNamesOfElements, namesOfElements, plainNamesOfOption_eq element plain.1,
      plainNamesOfElements_eq rest plain.2]

theorem Pattern.plainNamesOfOption_eq :
    ∀ pattern : Option Pattern, isPlainOption pattern = true →
      plainNamesOfOption pattern = namesOfOption pattern
  | none, _ => by rw [plainNamesOfOption, namesOfOption]
  | some pattern, plain => by
    rw [isPlainOption] at plain
    rw [plainNamesOfOption, namesOfOption, pattern.plainNames_eq plain]

end

/-! ## The names of parameters -/

/-- The names that the parameters bind outside of defaults, in order; those of the parameter that
takes all further arguments are left out. -/
def Parameters.plainNames (parameters : Parameters) : List String :=
  parameters.items.flatMap (·.pattern.plainNames)

/-- No part of a parameter has a default within its pattern, and none takes all further arguments. -/
def Parameters.isPlain (parameters : Parameters) : Bool :=
  parameters.items.all (·.pattern.isPlain) && parameters.rest.isNone

namespace Parameters

theorem plainNames_sublist (parameters : Parameters) :
    parameters.plainNames.Sublist parameters.names := by
  have items : parameters.plainNames.Sublist (parameters.items.flatMap (·.pattern.names)) := by
    rw [plainNames]
    induction parameters.items with
    | nil => exact .refl _
    | cons item rest ih =>
      rw [List.flatMap_cons, List.flatMap_cons]
      exact item.pattern.plainNames_sublist.append ih
  exact items.trans (List.sublist_append_left _ _)

theorem plainNames_eq {parameters : Parameters} (plain : parameters.isPlain = true) :
    parameters.plainNames = parameters.names := by
  rw [isPlain, Bool.and_eq_true, List.all_eq_true, Option.isNone_iff_eq_none] at plain
  rw [plainNames, names, plain.2, Pattern.namesOfOption, List.append_nil]
  exact List.flatMap_congr fun item mem => item.pattern.plainNames_eq (plain.1 item mem)

end Parameters

/-- The names of parameters are collected from those outside of defaults. -/
theorem foldl_addNames_eq (items : List Parameter) (names : List String) :
    items.foldl (fun names item => item.pattern.addNames names) names =
      Scope.addNames names (items.flatMap (·.pattern.plainNames)) := by
  induction items generalizing names with
  | nil => rfl
  | cons item rest ih =>
    rw [List.foldl_cons, ih, List.flatMap_cons, Scope.addNames_append, item.pattern.addNames_eq]

end Script
end ReactiveTemplate
