import DocSchema.Config.Load
import DocSchema.Run.Export

/-!
# Jobs

The jobs that are done with a configuration: its schema is checked, compiled or reported on.

## Main definitions

* `loadSchema`: a configuration with its schema
* `validateSchema`, `compileSchema`, `reportSchema`: the jobs
* `RunFault`: why a job fails
-/

namespace DocSchema

/-- Why a job fails. -/
inductive RunFault
  | load (fault : LoadFault)
  /-- The schema has violations. -/
  | refused (violations : List Violation)
  | output (fault : ExportFault)
  | unknownFormat (name : String)
  /-- A workbook is asked for without a file. -/
  | noDestination
  deriving DecidableEq, Repr

namespace RunFault

/-- The wording for a schema with violations. -/
def refusal (violations : List Violation) : String :=
  "\n".intercalate
    (("Schema has " ++ toString violations.length ++ " violation(s):")
      :: violations.map fun v => "  - " ++ v.text)

/-- The wording of a fault. -/
def message : RunFault → String
  | load fault => fault.message
  | refused violations => refusal violations
  | output fault => fault.message
  | unknownFormat name => unknownFormatMessage name
  | noDestination => "Workbook reports require an output path."

/-- Whether a fault is one that the command line reports; the other ones end the program. -/
def isReported : RunFault → Bool
  | load fault => fault.isReported
  | .output (.workbook _) => false
  | _ => true

end RunFault

/-! ## Loading -/

/-- A configuration with its schema. -/
structure LoadedSchema where
  configuration : Configuration
  schema : Schema

/-- The configuration in a file, with its schema. -/
def LoadedSchema.load (w : Workspace) (config : Path) : Except LoadFault LoadedSchema := do
  let configuration ← Configuration.load w config
  let schema ← configuration.schema.schema
  return { configuration, schema }

/-- Loads the configuration in a file and its schema. -/
def loadSchema (config : String) : Action RunFault LoadedSchema := do
  let w ← Action.workspace
  let loaded ← Action.ofExcept ((LoadedSchema.load w (.ofText config)).mapError .load)
  Action.record (.loaded loaded.schema.entities.length loaded.schema.roles.length)
  return loaded

/-! ## Checking -/

/-- The violations of the schema of a configuration. -/
def validateSchema (config : String) : Action RunFault (List Violation) := do
  let loaded ← loadSchema config
  return loaded.schema.violations

/-! ## Compiling -/

/-- What is to be compiled. -/
structure CompileRequest where
  config : String
  /-- Where the compiled files go instead, unless it is empty. -/
  outputDirectory : Option String := none
  /-- Whether the report is written too if the configuration has a file for it. -/
  withReport : Bool := true
  deriving DecidableEq, Repr

/-- What a compilation gave. -/
structure CompileOutcome where
  artifacts : Artifacts
  report : Option Path
  violations : List Violation
  deriving DecidableEq, Repr

/-- A text that an option gives, unless it is empty. -/
def nonempty? (text : Option String) : Option String := text.filter (· != "")

/-- Writes the report if a configuration has a file for it. -/
def exportConfigured (c : Configuration) (s : Schema) : Action RunFault (Option Path) :=
  match c.report.path with
  | none => pure none
  | some p => do
    let written ← (s.report.exportTo c.report.format p).adaptExcept .output
    return some written

/-- Compiles the schema of a configuration and writes the compiled files and the report. -/
def compileSchema (r : CompileRequest) : Action RunFault CompileOutcome := do
  let loaded ← loadSchema r.config
  let configuration := loaded.configuration
  let violations := loaded.schema.violations
  violations.forM fun v => Action.record (.violation v)
  if !violations.isEmpty && configuration.failOnViolations then throw (.refused violations)
  let output ← match nonempty? r.outputDirectory with
    | none => pure configuration.output
    | some directory => do
      let directory ← Action.resolve (.ofText directory)
      pure { configuration.output with directory }
  let compiled := loaded.schema.compiled
  Action.record (.compiled loaded.schema.entities.length compiled.indexes.length)
  let artifacts ← (compiled.write output).adaptExcept fun fault => .output (.write fault)
  let report ← if r.withReport then exportConfigured configuration loaded.schema else pure none
  return { artifacts, report, violations }

/-! ## Reporting -/

/-- What report is asked for. An empty text counts as none. -/
structure ReportRequest where
  config : String
  format : Option String := none
  output : Option String := none
  deriving DecidableEq, Repr

/-- What came of a report. -/
inductive ReportOutcome
  | shown (content : String)
  | saved (path : Path)
  deriving DecidableEq, Repr

/-- Gives a report in a format. It is shown if there is no file for it; a workbook needs one. -/
def giveReport (r : Report) (format : ReportFormat) (destination : Option Path) :
    Action RunFault ReportOutcome :=
  match destination with
  | some p => do
    let written ← (r.exportTo format p).adaptExcept .output
    return .saved written
  | none =>
    match r.shown? format with
    | some content => return .shown content
    | none => throw .noDestination

/-- Gives the report on the schema of a configuration. The file of the configuration counts for
workbooks only. -/
def reportSchema (r : ReportRequest) : Action RunFault ReportOutcome := do
  let loaded ← loadSchema r.config
  let settings := loaded.configuration.report
  let name := (nonempty? r.format).getD settings.format.name
  match ReportFormat.ofName? name with
  | none => throw (.unknownFormat name)
  | some format =>
    let asked := (nonempty? r.output).map Path.ofText
    let destination := if format = .workbook then asked.or settings.path else asked
    giveReport loaded.schema.report format destination

end DocSchema
