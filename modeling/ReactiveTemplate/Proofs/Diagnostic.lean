import ReactiveTemplate.Diagnostic

/-!
# Results that can fail

What a computation that went well says about its parts, which rules a computation that failed cannot
have found broken, and when two computations go the same way.
-/

namespace ReactiveTemplate

/-- A sequence goes well exactly when both of its parts do. -/
theorem bind_eq_ok {ε α β : Type} {first : Except ε α} {next : α → Except ε β} {result : β} :
    (first >>= next) = .ok result ↔ ∃ value, first = .ok value ∧ next value = .ok result := by
  cases first with
  | error fault => simp [bind, Except.bind]
  | ok value => simp [bind, Except.bind]

/-- A sequence fails where its first part does, or its second part after that. -/
theorem bind_eq_error {ε α β : Type} {first : Except ε α} {next : α → Except ε β} {fault : ε} :
    (first >>= next) = .error fault ↔
      first = .error fault ∨ ∃ value, first = .ok value ∧ next value = .error fault := by
  cases first with
  | error fault => simp [bind, Except.bind]
  | ok value => simp [bind, Except.bind]

/-- A computation whose result is seen to have a property goes well. -/
theorem exists_ok {ε α : Type} {outcome : Except ε α} (property : α → Bool)
    (evaluates : outcome.toOption.any property = true) :
    ∃ value, outcome = .ok value ∧ property value = true := by
  cases outcome with
  | error fault => cases evaluates
  | ok value => exact ⟨value, rfl, evaluates⟩

@[simp]
theorem reportIn_eq_ok {α : Type} {file : String} {outcome : Except Misstep α} {value : α} :
    reportIn file outcome = .ok value ↔ outcome = .ok value := by
  cases outcome with
  | ok found => simp [reportIn]
  | error misstep => simp [reportIn]

theorem reportIn_eq_error {α : Type} {file : String} {outcome : Except Misstep α}
    {report : Diagnostic} :
    reportIn file outcome = .error report ↔
      ∃ fault location, outcome = .error (fault, location) ∧
        fault.report file location = report := by
  cases outcome with
  | ok found => simp [reportIn]
  | error misstep =>
      constructor
      · intro same
        exact ⟨misstep.1, misstep.2, rfl, Except.error.inj same⟩
      · rintro ⟨_, _, same, rfl⟩
        cases same
        rfl

/-- The computation does not find the rule broken, and its result has the property if there is
one. -/
def Spares {α : Type} (rule : Rule) (outcome : Except Misstep α) (property : α → Prop) : Prop :=
  match outcome with
  | .ok value => property value
  | .error (fault, _) => fault.rule ≠ rule

namespace Spares

variable {α β : Type} {rule : Rule}

theorem bind {first : Except Misstep α} {next : α → Except Misstep β} {halfway : α → Prop}
    {property : β → Prop} (left : Spares rule first halfway)
    (right : ∀ value, halfway value → Spares rule (next value) property) :
    Spares rule (first >>= next) property := by
  cases first with
  | ok value => exact right value left
  | error misstep => exact left

theorem mono {outcome : Except Misstep α} {property property' : α → Prop}
    (spares : Spares rule outcome property) (weaker : ∀ value, property value → property' value) :
    Spares rule outcome property' := by
  cases outcome with
  | ok value => exact weaker value spares
  | error misstep => exact spares

/-- A fault of the computation breaks another rule. -/
theorem error_rule_ne {outcome : Except Misstep α} {property : α → Prop} {misstep : Misstep}
    (spares : Spares rule outcome property) (failed : outcome = .error misstep) :
    misstep.1.rule ≠ rule := by
  subst failed
  exact spares

/-- A report of the computation is about another rule. -/
theorem rule_ne {outcome : Except Misstep α} {property : α → Prop} {file : String}
    {report : Diagnostic} (spares : Spares rule outcome property)
    (failed : reportIn file outcome = .error report) : report.rule ≠ rule := by
  cases outcome with
  | ok value => cases failed
  | error misstep =>
      cases failed
      exact spares.error_rule_ne rfl

end Spares

/-- Two computations fail with the same fault, or both go well with related results. -/
inductive Corresponds {ε α β : Type} (related : α → β → Prop) : Except ε α → Except ε β → Prop where
  /-- Both fail. -/
  | error (fault : ε) : Corresponds related (.error fault) (.error fault)
  /-- Both go well. -/
  | ok {value : α} {value' : β} : related value value' →
      Corresponds related (.ok value) (.ok value')

namespace Corresponds

variable {ε α β γ δ : Type} {related : α → β → Prop} {related' : γ → δ → Prop}

theorem bind {first : Except ε α} {first' : Except ε β} {next : α → Except ε γ}
    {next' : β → Except ε δ} (left : Corresponds related first first')
    (right : ∀ value value', related value value' →
      Corresponds related' (next value) (next' value')) :
    Corresponds related' (first >>= next) (first' >>= next') := by
  cases left with
  | error fault => exact .error fault
  | ok same => exact right _ _ same

/-- Where two computations branch on outcomes that correspond. -/
theorem error_or_ok {outcome : Except ε α} {outcome' : Except ε β}
    (corresponds : Corresponds related outcome outcome') :
    (∃ fault, outcome = .error fault ∧ outcome' = .error fault) ∨
      ∃ value value', related value value' ∧ outcome = .ok value ∧ outcome' = .ok value' := by
  cases corresponds with
  | error fault => exact .inl ⟨fault, rfl, rfl⟩
  | ok same => exact .inr ⟨_, _, same, rfl, rfl⟩

theorem reportIn {outcome : Except Misstep α} {outcome' : Except Misstep β}
    (corresponds : Corresponds related outcome outcome') (file : String) :
    Corresponds related (reportIn file outcome) (reportIn file outcome') := by
  cases corresponds with
  | error misstep => exact .error _
  | ok same => exact .ok same

/-- If one computation goes well, so does the other. -/
theorem exists_ok {outcome : Except ε α} {outcome' : Except ε β} {value : α}
    (corresponds : Corresponds related outcome outcome') (ok : outcome = .ok value) :
    ∃ value', outcome' = .ok value' ∧ related value value' := by
  cases corresponds with
  | error fault => cases ok
  | ok same =>
      cases ok
      exact ⟨_, rfl, same⟩

end Corresponds

/-- Two computations both fail, for whatever reasons, or both go well with related results. -/
inductive Concurs {ε ε' α β : Type} (related : α → β → Prop) : Except ε α → Except ε' β → Prop where
  /-- Both fail. -/
  | error (fault : ε) (fault' : ε') : Concurs related (.error fault) (.error fault')
  /-- Both go well. -/
  | ok {value : α} {value' : β} : related value value' → Concurs related (.ok value) (.ok value')

namespace Concurs

variable {ε ε' α β γ δ : Type} {related : α → β → Prop} {related' : γ → δ → Prop}

theorem bind {first : Except ε α} {first' : Except ε' β} {next : α → Except ε γ}
    {next' : β → Except ε' δ} (left : Concurs related first first')
    (right : ∀ value value', related value value' → Concurs related' (next value) (next' value')) :
    Concurs related' (first >>= next) (first' >>= next') := by
  cases left with
  | error fault fault' => exact .error fault fault'
  | ok same => exact right _ _ same

/-- Where two computations branch on outcomes that concur. -/
theorem error_or_ok {outcome : Except ε α} {outcome' : Except ε' β}
    (concurs : Concurs related outcome outcome') :
    (∃ fault fault', outcome = .error fault ∧ outcome' = .error fault') ∨
      ∃ value value', related value value' ∧ outcome = .ok value ∧ outcome' = .ok value' := by
  cases concurs with
  | error fault fault' => exact .inl ⟨fault, fault', rfl, rfl⟩
  | ok same => exact .inr ⟨_, _, same, rfl, rfl⟩

theorem reportIn {outcome : Except Misstep α} {outcome' : Except Misstep β}
    (concurs : Concurs related outcome outcome') (file : String) :
    Concurs related (reportIn file outcome) (reportIn file outcome') := by
  cases concurs with
  | error fault fault' => exact .error _ _
  | ok same => exact .ok same

end Concurs
end ReactiveTemplate
