import DocSchema.Proofs.Run.Agreement

/-!
# The course of a report

A report is made of the schema that is loaded. Its format is the one that is asked for, or that of
the configuration, and this module says in one equation what becomes of it: it goes to a file if
there is one for it, and is shown otherwise.

## Main definitions

* `ReportRequest.format?`: the format of the report that a request asks for
* `ReportRequest.destination?`: the file to which the report goes

## Main results

* `run_reportSchema`: what a report does
-/

namespace DocSchema

namespace ReportRequest

variable (r : ReportRequest) (settings : ReportSettings)

/-- The name of the format that a request asks for, which may be that of the configuration. -/
def formatName : String := (nonempty? r.format).getD settings.format.name

/-- The format of the report that a request asks for, if there is one of the name. -/
def format? : Option ReportFormat := ReportFormat.ofName? (r.formatName settings)

/-- The file to which the report goes. That of the configuration is for workbooks only. -/
def destination? (format : ReportFormat) : Option Path :=
  if format = .workbook then ((nonempty? r.output).map Path.ofText).or settings.path
  else (nonempty? r.output).map Path.ofText

end ReportRequest

theorem run_reportSchema_of_ok {r : ReportRequest} {session : Session} {loaded : LoadedSchema}
    (h : LoadedSchema.load session.workspace (.ofText r.config) = .ok loaded) :
    (reportSchema r).run session =
      match r.format? loaded.configuration.report with
      | none =>
        .error (.unknownFormat (r.formatName loaded.configuration.report))
          (session.afterLoad loaded)
      | some format =>
        (giveReport loaded.schema.report format
          (r.destination? loaded.configuration.report format)).run (session.afterLoad loaded) := by
  rw [reportSchema, Action.run_bind_of_ok (run_loadSchema_of_ok h)]
  dsimp only
  rw [← ReportRequest.formatName, ← ReportRequest.format?]
  cases r.format? loaded.configuration.report with
  | none => rfl
  | some format => rfl

/-- **What a report does.** It fails with the fault of the loading or for a format that nobody
knows, or it is given in its format. -/
theorem run_reportSchema (r : ReportRequest) (session : Session) :
    (reportSchema r).run session =
      match LoadedSchema.load session.workspace (.ofText r.config) with
      | .error fault => .error (.load fault) session
      | .ok loaded =>
        match r.format? loaded.configuration.report with
        | none =>
          .error (.unknownFormat (r.formatName loaded.configuration.report))
            (session.afterLoad loaded)
        | some format =>
          (giveReport loaded.schema.report format
            (r.destination? loaded.configuration.report format)).run
              (session.afterLoad loaded) := by
  cases h : LoadedSchema.load session.workspace (.ofText r.config) with
  | error fault => exact run_reportSchema_of_loadFault h
  | ok loaded => exact run_reportSchema_of_ok h

end DocSchema
