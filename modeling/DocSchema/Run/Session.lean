import DocSchema.Schema.Violation
import DocSchema.Workspace.Edit

/-!
# Sessions

A run works in a session: a workspace, and a log of what happened so far.

## Main definitions

* `Event`: what the log tells
* `Session`, `Action`: a run that changes a session and may fail
* `Action.edit`, `Action.record`
-/

namespace DocSchema

/-! ## Events -/

/-- What may happen in a run. -/
inductive Event
  | loaded (entities roles : Nat)
  | violation (v : Violation)
  | compiled (blocks indexes : Nat)
  | wroteText (path : Path) (bytes : Nat)
  | wroteWorkbook (path : Path)
  deriving DecidableEq, Repr

namespace Event

/-- Whether an event is a warning. -/
def isWarning : Event → Bool
  | violation _ => true
  | _ => false

/-- The part of the program in which an event happens. -/
def source : Event → String
  | wroteText _ _ | wroteWorkbook _ => "schema_compiler.artifact_writing.artifact_writer"
  | _ => "schema_compiler.run_execution.compilation_run_use_case"

/-- The wording of an event. -/
def message : Event → String
  | loaded entities roles =>
    "Loaded schema with " ++ toString entities ++ " entities and " ++ toString roles ++ " roles"
  | violation v => "Schema violation: " ++ v.text
  | compiled blocks indexes =>
    "Compiled " ++ toString blocks ++ " collection rule blocks and " ++ toString indexes
      ++ " composite indexes"
  | wroteText path bytes => "Wrote " ++ path.text ++ " (" ++ toString bytes ++ " bytes)"
  | wroteWorkbook path => "Wrote report workbook " ++ path.text

/-- An event on one line of a detailed log. -/
def line (e : Event) : String :=
  (if e.isWarning then "WARNING " else "INFO ") ++ e.source ++ ": " ++ e.message

end Event

/-- The lines of a log: all events in detail, or only the wording of the warnings. -/
def logLines (detailed : Bool) (events : List Event) : List String :=
  if detailed then events.map Event.line
  else (events.filter Event.isWarning).map Event.message

/-! ## Sessions -/

/-- A workspace with a log. -/
structure Session where
  workspace : Workspace
  events : List Event := []
  deriving DecidableEq, Repr

/-- A run that changes a session and may fail. What it did before it failed stays done. -/
abbrev Action (ε α : Type) := EStateM ε Session α

namespace Action

variable {ε α : Type}

/-- The workspace of the session. -/
def workspace : Action ε Workspace := fun s => .ok s.workspace s

/-- The path of the location to which a path leads. -/
def resolve (p : Path) : Action ε Path := fun s => .ok (p.resolve s.workspace.current) s

/-- Adds an event to the log. -/
def record (e : Event) : Action ε Unit := fun s => .ok () { s with events := s.events ++ [e] }

/-- A change of the workspace of the session. -/
def edit {φ : Type} (fault : φ → ε) (change : EStateM φ Workspace α) : Action ε α := fun s =>
  match change s.workspace with
  | .ok a w => .ok a { s with workspace := w }
  | .error f w => .error (fault f) { s with workspace := w }

/-- A result that needs no session. -/
def ofExcept : Except ε α → Action ε α
  | .ok a => fun s => .ok a s
  | .error fault => fun s => .error fault s

end Action

end DocSchema
