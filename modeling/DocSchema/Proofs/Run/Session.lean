import DocSchema.Proofs.Except
import DocSchema.Run.Session
import Mathlib.Data.List.Basic

/-!
# How sessions run

An `Action` is run step by step, and this module says what one step makes of the next: a step that
fails ends the run in the session it left, and a step that succeeds hands its result and its session
on. Proofs about jobs use these laws and never look into the monad.

## Main definitions

* `Session.logged`: a session in which more has happened
* `Action.Gives`: all results of an action have a property

## Main results

* `Action.run_bind_of_ok`, `Action.run_bind_of_error`: a run after its first step
* `Action.run_forM_record`: a log of several events
* `Action.run_edit_eq_ok_iff`, `Action.run_edit_eq_error_iff`: how a change of the workspace ends
* `Action.Gives.bind`: the results of a run are those of its last step
-/

namespace DocSchema

/-- A session in which events have happened and nothing else. -/
def Session.logged (s : Session) (events : List Event) : Session :=
  { s with events := s.events ++ events }

@[simp]
theorem Session.logged_workspace (s : Session) (events : List Event) :
    (s.logged events).workspace = s.workspace := rfl

theorem Session.logged_nil (s : Session) : s.logged [] = s := by
  rw [logged, List.append_nil]

theorem Session.logged_logged (s : Session) (before after : List Event) :
    (s.logged before).logged after = s.logged (before ++ after) := by
  simp only [logged, List.append_assoc]

namespace Action

variable {ε φ α β : Type}

/-! ## One step after the other -/

theorem run_bind_of_ok {x : Action ε α} {f : α → Action ε β} {s t : Session} {a : α}
    (h : x.run s = .ok a t) : (x >>= f).run s = (f a).run t := by
  rw [EStateM.run_bind, h]

theorem run_bind_of_error {x : Action ε α} {f : α → Action ε β} {s t : Session} {fault : ε}
    (h : x.run s = .error fault t) : (x >>= f).run s = .error fault t := by
  rw [EStateM.run_bind, h]

theorem run_workspace (s : Session) :
    (workspace : Action ε Workspace).run s = .ok s.workspace s := rfl

theorem run_ofExcept_ok (a : α) (s : Session) :
    (ofExcept (.ok a) : Action ε α).run s = .ok a s := rfl

theorem run_ofExcept_error (fault : ε) (s : Session) :
    (ofExcept (.error fault) : Action ε α).run s = .error fault s := rfl

theorem run_record (e : Event) (s : Session) :
    (record e : Action ε Unit).run s = .ok () (s.logged [e]) := rfl

/-- Events are logged in order. -/
theorem run_forM_record (event : α → Event) (as : List α) (s : Session) :
    (as.forM fun a => (record (event a) : Action ε Unit)).run s =
      .ok () (s.logged (as.map event)) := by
  induction as generalizing s with
  | nil =>
    rw [List.map_nil, s.logged_nil]
    rfl
  | cons a as ih =>
    show (record (event a) >>= fun _ => as.forM fun a => record (event a)).run s = _
    rw [run_bind_of_ok (run_record _ _), ih, Session.logged_logged]
    rfl

/-! ## How a run ends -/

theorem run_edit_eq_ok_iff {rename : φ → ε} {change : EStateM φ Workspace α} {s t : Session}
    {a : α} :
    (edit rename change).run s = .ok a t ↔
      ∃ w, change.run s.workspace = .ok a w ∧ t = { s with workspace := w } := by
  show (edit rename change) s = _ ↔ ∃ w, change s.workspace = _ ∧ _
  rw [edit]
  cases change s.workspace <;> simp [eq_comm]

theorem run_adaptExcept_eq_ok_iff {rename : φ → ε} {x : Action φ α} {s t : Session} {a : α} :
    (EStateM.adaptExcept rename x).run s = .ok a t ↔ x.run s = .ok a t := by
  show EStateM.adaptExcept rename x s = _ ↔ x s = _
  rw [EStateM.adaptExcept]
  cases x s <;> simp

theorem run_adaptExcept_eq_error_iff {rename : φ → ε} {x : Action φ α} {s t : Session}
    {fault : ε} :
    (EStateM.adaptExcept rename x).run s = .error fault t ↔
      ∃ cause, x.run s = .error cause t ∧ rename cause = fault := by
  show EStateM.adaptExcept rename x s = _ ↔ ∃ cause, x s = _ ∧ _
  rw [EStateM.adaptExcept]
  cases x s <;> simp [and_comm, eq_comm]

/-- A run that can be computed up to a test of its result has such a result. -/
theorem exists_run_of_test {x : Action ε α} {s : Session} {test : α → Session → Bool}
    (h : (match x.run s with
      | .ok a t => test a t
      | .error _ _ => false) = true) :
    ∃ a t, x.run s = .ok a t ∧ test a t = true := by
  split at h
  · next hrun => exact ⟨_, _, hrun, h⟩
  · cases h

/-! ## Properties of results -/

/-- An action gives nothing but results with a property, wherever it starts. -/
def Gives (x : Action ε α) (P : α → Prop) : Prop :=
  ∀ s a t, x.run s = .ok a t → P a

theorem Gives.pure {P : α → Prop} {a : α} (h : P a) : Gives (pure a : Action ε α) P := by
  intro s b t hrun
  cases hrun
  exact h

/-- What comes after a failure does not happen. -/
theorem Gives.throw_bind {P : β → Prop} (fault : ε) (f : α → Action ε β) :
    Gives ((throw fault : Action ε α) >>= f) P := by
  intro s b t hrun
  cases hrun

theorem Gives.ite {P : α → Prop} {c : Prop} [Decidable c] {x y : Action ε α} (hx : Gives x P)
    (hy : Gives y P) : Gives (if c then x else y) P := by
  split
  · exact hx
  · exact hy

/-- Only the last step of a run matters for its result. -/
theorem Gives.bind {P : β → Prop} {x : Action ε α} {f : α → Action ε β} (h : ∀ a, Gives (f a) P) :
    Gives (x >>= f) P := by
  intro s b t hrun
  cases hx : x.run s with
  | ok a s' =>
    rw [run_bind_of_ok hx] at hrun
    exact h a _ _ _ hrun
  | error fault s' =>
    rw [run_bind_of_error hx] at hrun
    cases hrun

end Action

end DocSchema
