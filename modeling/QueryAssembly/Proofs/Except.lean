/-!
# Results and errors

When a computation that may fail, followed by a function of its result or of its error, comes to a
given result.
-/

namespace Except

variable {ε δ α β : Type}

theorem map_eq_ok_iff {result : Except ε α} {f : α → β} {b : β} :
    result.map f = .ok b ↔ ∃ a, result = .ok a ∧ f a = b := by
  cases result <;> simp [Except.map]

theorem map_eq_error_iff {result : Except ε α} {f : α → β} {e : ε} :
    result.map f = .error e ↔ result = .error e := by
  cases result <;> simp [Except.map]

theorem mapError_eq_ok_iff {result : Except ε α} {f : ε → δ} {a : α} :
    result.mapError f = .ok a ↔ result = .ok a := by
  constructor
  · intro h
    cases result with
    | error error => exact absurd h nofun
    | ok value => rw [ok.inj h]
  · rintro rfl
    rfl

theorem mapError_eq_error_iff {result : Except ε α} {f : ε → δ} {d : δ} :
    result.mapError f = .error d ↔ ∃ e, result = .error e ∧ f e = d := by
  constructor
  · intro h
    cases result with
    | error e => exact ⟨e, rfl, error.inj h⟩
    | ok value => exact absurd h nofun
  · rintro ⟨e, rfl, rfl⟩
    rfl

end Except
