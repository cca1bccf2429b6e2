import DocSchema.Proofs.Run.Agreement

/-!
# The course of a compilation

A compilation loads a schema, looks at its violations, and then writes files. The first two parts
change nothing but the log. This module says so in one equation: a compilation fails at once, or it
is the run of its last part, which writes the files.

## Main definitions

* `LoadedSchema.Accepted`: the violations of a schema do not keep it from being compiled
* `CompileRequest.output`: where the compiled files go
* `CompileRequest.deliver`: the part of a compilation that writes files

## Main results

* `run_compileSchema`: what a compilation does
-/

namespace DocSchema

/-- A schema has no violations, or its configuration lets it pass all the same. -/
def LoadedSchema.Accepted (loaded : LoadedSchema) : Prop :=
  loaded.configuration.failOnViolations = true → loaded.schema.violations = []

instance (loaded : LoadedSchema) : Decidable loaded.Accepted :=
  inferInstanceAs (Decidable (_ → _))

/-- Where the compiled files go: a request may ask for another directory. -/
def CompileRequest.output (r : CompileRequest) (current : Location) (o : OutputSettings) :
    OutputSettings :=
  match nonempty? r.outputDirectory with
  | none => o
  | some directory => { o with directory := (Path.ofText directory).resolve current }

/-- Writes the report if a request asks for it. -/
def CompileRequest.exportAsked (r : CompileRequest) (loaded : LoadedSchema) :
    Action RunFault (Option Path) :=
  if r.withReport then exportConfigured loaded.configuration loaded.schema else pure none

/-- The part of a compilation that writes files. -/
def CompileRequest.deliver (r : CompileRequest) (loaded : LoadedSchema) (o : OutputSettings) :
    Action RunFault CompileOutcome := do
  let artifacts ← (loaded.schema.compiled.write o).adaptExcept fun fault => .output (.write fault)
  let report ← r.exportAsked loaded
  return { artifacts, report, violations := loaded.schema.violations }

/-- A session in which a schema has been loaded, and its violations are logged. -/
def Session.afterCheck (session : Session) (loaded : LoadedSchema) : Session :=
  (session.afterLoad loaded).logged (loaded.schema.violations.map .violation)

/-- A session in which a schema has been loaded, looked at and compiled, but not yet written. -/
def Session.afterCompiling (session : Session) (loaded : LoadedSchema) : Session :=
  (session.afterCheck loaded).logged
    [.compiled loaded.schema.entities.length loaded.schema.indexes.length]

@[simp]
theorem Session.afterCompiling_workspace (session : Session) (loaded : LoadedSchema) :
    (session.afterCompiling loaded).workspace = session.workspace := rfl

theorem run_compileSchema_of_accepted {r : CompileRequest} {session : Session}
    {loaded : LoadedSchema}
    (h : LoadedSchema.load session.workspace (.ofText r.config) = .ok loaded)
    (haccepted : loaded.Accepted) :
    (compileSchema r).run session =
      (r.deliver loaded (r.output session.workspace.current loaded.configuration.output)).run
        (session.afterCompiling loaded) := by
  have hgate :
      ¬ (!loaded.schema.violations.isEmpty && loaded.configuration.failOnViolations) = true := by
    rw [Bool.and_eq_true, Bool.not_eq_true', List.isEmpty_eq_false_iff]
    exact fun hrefused => hrefused.1 (haccepted hrefused.2)
  rw [compileSchema, Action.run_bind_of_ok (run_loadSchema_of_ok h)]
  dsimp only
  rw [Action.run_bind_of_ok (Action.run_forM_record Event.violation _ _), if_neg hgate,
    CompileRequest.output, CompileRequest.deliver, CompileRequest.exportAsked]
  cases nonempty? r.outputDirectory <;> cases r.withReport <;> rfl

/-- **What a compilation does.** It fails with the fault of the loading, it refuses a schema with
violations, or it writes files; nothing but the log has changed before. -/
theorem run_compileSchema (r : CompileRequest) (session : Session) :
    (compileSchema r).run session =
      match LoadedSchema.load session.workspace (.ofText r.config) with
      | .error fault => .error (.load fault) session
      | .ok loaded =>
        if loaded.Accepted then
          (r.deliver loaded (r.output session.workspace.current loaded.configuration.output)).run
            (session.afterCompiling loaded)
        else .error (.refused loaded.schema.violations) (session.afterCheck loaded) := by
  cases h : LoadedSchema.load session.workspace (.ofText r.config) with
  | error fault => exact run_compileSchema_of_loadFault h
  | ok loaded =>
    dsimp only
    split
    · next haccepted => exact run_compileSchema_of_accepted h haccepted
    · next hrefused =>
      rw [LoadedSchema.Accepted, Classical.not_imp] at hrefused
      exact run_compileSchema_of_violations h hrefused.1 hrefused.2

end DocSchema
