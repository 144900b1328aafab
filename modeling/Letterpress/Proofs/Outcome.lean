/-!
Steps that may fail, taken apart: a chain of them succeeds where each step does.
-/

namespace Letterpress

variable {Error Other Result Next : Type}

theorem bind_eq_ok {outcome : Except Error Result} {step : Result → Except Error Next}
    {next : Next} :
    (outcome >>= step) = .ok next ↔ ∃ result, outcome = .ok result ∧ step result = .ok next := by
  cases outcome with
  | error error =>
      constructor
      · intro impossible
        cases impossible
      · rintro ⟨_, impossible, _⟩
        cases impossible
  | ok result =>
      constructor
      · intro rest
        exact ⟨result, rfl, rest⟩
      · rintro ⟨_, same, rest⟩
        cases same
        exact rest

theorem bind_eq_error {outcome : Except Error Result} {step : Result → Except Error Next}
    {error : Error} :
    (outcome >>= step) = .error error ↔
      outcome = .error error ∨ ∃ result, outcome = .ok result ∧ step result = .error error := by
  cases outcome with
  | error failure =>
      constructor
      · intro failed
        cases failed
        exact .inl rfl
      · rintro (failed | ⟨_, impossible, _⟩)
        · cases failed
          rfl
        · cases impossible
  | ok result =>
      constructor
      · intro failed
        exact .inr ⟨result, rfl, failed⟩
      · rintro (impossible | ⟨_, same, failed⟩)
        · cases impossible
        · cases same
          exact failed

/-- A last step that only returns something is never what fails. -/
theorem error_of_return {outcome : Except Error Result} {finish : Result → Next} {error : Error}
    (failed : (outcome >>= fun result => pure (finish result)) = .error error) :
    outcome = .error error := by
  rcases bind_eq_error.mp failed with here | ⟨_, _, impossible⟩
  · exact here
  · cases impossible

theorem map_eq_ok {outcome : Except Error Result} {finish : Result → Next} {next : Next} :
    outcome.map finish = .ok next ↔ ∃ result, outcome = .ok result ∧ finish result = next := by
  cases outcome <;> simp [Except.map]

theorem mapError_ok (rename : Error → Other) (result : Result) :
    (Except.ok result).mapError rename = .ok result := rfl

theorem mapError_error (rename : Error → Other) (error : Error) :
    (Except.error error : Except Error Result).mapError rename = .error (rename error) := rfl

theorem mapError_eq_ok {outcome : Except Error Result} {rename : Error → Other}
    {result : Result} : outcome.mapError rename = .ok result ↔ outcome = .ok result := by
  cases outcome <;> simp [mapError_ok, mapError_error]

theorem mapError_eq_error {outcome : Except Error Result} {rename : Error → Other} {other : Other} :
    outcome.mapError rename = .error other ↔
      ∃ error, outcome = .error error ∧ rename error = other := by
  cases outcome <;> simp [mapError_ok, mapError_error]

theorem toOption_eq_some {outcome : Except Error Result} {result : Result} :
    outcome.toOption = some result ↔ outcome = .ok result := by
  cases outcome <;> simp [Except.toOption]

def failure? : Except Error Result → Option Error
  | .ok _ => none
  | .error error => some error

theorem failure_eq_some {outcome : Except Error Result} {error : Error} :
    failure? outcome = some error ↔ outcome = .error error := by
  cases outcome <;> simp [failure?]

theorem failure_eq_none {outcome : Except Error Result} :
    failure? outcome = none ↔ ∃ result, outcome = .ok result := by
  cases outcome <;> simp [failure?]

theorem failure_mapError (outcome : Except Error Result) (rename : Error → Other) :
    failure? (outcome.mapError rename) = (failure? outcome).map rename := by
  cases outcome <;> rfl

/-- A step whose failure is the same whatever it goes on from fails where the one before
does, and otherwise on its own account. -/
theorem failure_bind {outcome : Except Error Result} {step : Result → Except Error Next}
    {later : Option Error} (always : ∀ result, failure? (step result) = later) :
    failure? (outcome >>= step) = (failure? outcome).or later := by
  cases outcome with
  | error error => rfl
  | ok result => exact always result

theorem failure_return (outcome : Except Error Result) (finish : Result → Next) :
    failure? (outcome >>= fun result => pure (finish result)) = failure? outcome := by
  cases outcome <;> rfl

theorem exists_ok_of_isOk {outcome : Except Error Result} (succeeds : outcome.isOk = true) :
    ∃ result, outcome = .ok result := by
  cases outcome with
  | error error => cases succeeds
  | ok result => exact ⟨result, rfl⟩

end Letterpress
