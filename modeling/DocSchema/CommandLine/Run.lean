import DocSchema.CommandLine.Call
import DocSchema.Run.Job
import DocSchema.Text.Terminal

/-!
# Running the command line

## Main definitions

* `Command.run`: does the work of a command
* `Printed`, `Ending`, `Outcome`: what a call prints and how it ends
* `run`: the outcome of arguments in a workspace
-/

namespace DocSchema.CommandLine

/-- What is printed, as output and as messages. -/
structure Printed where
  out : String := ""
  err : String := ""
  deriving DecidableEq, Repr

/-- Why a command fails. -/
inductive CommandFault
  | run (fault : RunFault)
  | template (fault : TemplateFault)
  /-- The schema that was to be checked has violations. -/
  | violations (found : List Violation)
  deriving DecidableEq, Repr

/-- The wording of a fault. -/
def CommandFault.message : CommandFault → String
  | run fault => fault.message
  | template fault => fault.message
  | violations found => "\n".intercalate (found.map Violation.text)

/-- How a program ends. -/
inductive Ending
  | exit (code : Nat)
  /-- A fault stops the program. -/
  | stopped (fault : RunFault)
  deriving DecidableEq, Repr

/-- The ending of a command that fails. -/
def CommandFault.ending : CommandFault → Ending
  | run fault => if fault.isReported then .exit 1 else .stopped fault
  | _ => .exit 1

/-- Lines as they are printed. -/
def printLines (lines : List String) : String :=
  Text.unlines (lines.map Text.withoutControls)

/-- A text as it is printed. Its last line gets an end if it has none. -/
def printText (s : String) : String :=
  Text.withoutControls (if s.toList.getLast? = some '\n' then s else s ++ "\n")

/-! ## Commands -/

namespace Command

/-- What a compilation prints: warnings, and the written files. -/
def printCompiled (outcome : CompileOutcome) : Printed where
  out := printLines (([outcome.artifacts.rules, outcome.artifacts.storage,
    outcome.artifacts.indexes] ++ outcome.report.toList).map Path.text)
  err := printLines (outcome.violations.map fun v => "warning: " ++ v.text)

/-- What a report prints. -/
def printReport : ReportOutcome → Printed
  | .shown content => { out := printText content }
  | .saved path => { out := printLines [path.text] }

/-- Does the work of a command. -/
def run : Command → Action CommandFault Printed
  | generateConfig output => do
    let written ← Action.edit .template (writeTemplate (.ofText output))
    return { out := printLines [written.text] }
  | validate config => do
    let found ← (validateSchema config).adaptExcept .run
    if found.isEmpty then return { out := printLines ["schema is valid"] }
    else throw (.violations found)
  | compile config outputDirectory => do
    let outcome ← (compileSchema { config, outputDirectory }).adaptExcept .run
    return printCompiled outcome
  | report config format output => do
    let outcome ← (reportSchema { config, format, output }).adaptExcept .run
    return printReport outcome

end Command

/-! ## Calls -/

/-- The outcome of a call. -/
structure Outcome where
  ending : Ending
  printed : Printed
  workspace : Workspace
  deriving DecidableEq, Repr

/-- What is printed of a failure. A fault that stops the program is not printed. -/
def CommandFault.print (f : CommandFault) : String :=
  match f.ending with
  | .exit _ => printLines [f.message]
  | .stopped _ => ""

/-- Runs a command in a workspace. Its log precedes the other messages. -/
def runCommand (w : Workspace) (verbose : Bool) (command : Command) : Outcome :=
  match command.run { workspace := w } with
  | .ok printed s =>
    { ending := .exit 0
      printed := { printed with err := Text.unlines (logLines verbose s.events) ++ printed.err }
      workspace := s.workspace }
  | .error fault s =>
    { ending := fault.ending
      printed := { err := Text.unlines (logLines verbose s.events) ++ fault.print }
      workspace := s.workspace }

/-- The outcome of arguments in a workspace. -/
def run (w : Workspace) (arguments : List String) : Outcome :=
  match Call.ofArguments arguments with
  | .error fault =>
    { ending := .exit 2, printed := { err := Text.withoutControls fault.text }, workspace := w }
  | .ok (.help page) =>
    { ending := .exit 0, printed := { out := page.help }, workspace := w }
  | .ok .version =>
    { ending := .exit 0, printed := { out := printLines [versionLine] }, workspace := w }
  | .ok (.run verbose command) => runCommand w verbose command

end DocSchema.CommandLine
