import DocSchema.Proofs.Run.Session
import DocSchema.Run.Job

/-!
# Jobs agree about a schema

A schema is checked, compiled or reported on, and each job loads it for itself. This module shows
that they do not disagree: what cannot be loaded is refused by all of them for the same reason, and
a compilation goes by the very violations that the check gives.

A refused job leaves the workspace alone. Loading only reads it, and a compilation looks at the
violations before it writes anything; what it has done until then is to log them.

## Main results

* `run_loadSchema`: what loading does
* `run_validateSchema`: what the check does
* `jobs_agree`: the jobs agree, and a refused one changes nothing
-/

namespace DocSchema

/-! ## Loading -/

/-- A session in which a schema has been loaded. -/
def Session.afterLoad (session : Session) (loaded : LoadedSchema) : Session :=
  session.logged [.loaded loaded.schema.entities.length loaded.schema.roles.length]

@[simp]
theorem Session.afterLoad_workspace (session : Session) (loaded : LoadedSchema) :
    (session.afterLoad loaded).workspace = session.workspace := rfl

/-- Loading changes nothing but the log, and not even that if it fails. -/
theorem run_loadSchema (config : String) (session : Session) :
    (loadSchema config).run session =
      match LoadedSchema.load session.workspace (.ofText config) with
      | .ok loaded => .ok loaded (session.afterLoad loaded)
      | .error fault => .error (.load fault) session := by
  rw [loadSchema, Action.run_bind_of_ok (Action.run_workspace session)]
  cases LoadedSchema.load session.workspace (.ofText config) with
  | ok loaded =>
    rw [Except.mapError, Action.run_bind_of_ok (Action.run_ofExcept_ok loaded session),
      Action.run_bind_of_ok (Action.run_record _ _)]
    rfl
  | error fault =>
    rw [Except.mapError, Action.run_bind_of_error (Action.run_ofExcept_error _ session)]

theorem run_loadSchema_of_ok {config : String} {session : Session} {loaded : LoadedSchema}
    (h : LoadedSchema.load session.workspace (.ofText config) = .ok loaded) :
    (loadSchema config).run session = .ok loaded (session.afterLoad loaded) := by
  rw [run_loadSchema, h]

theorem run_loadSchema_of_error {config : String} {session : Session} {fault : LoadFault}
    (h : LoadedSchema.load session.workspace (.ofText config) = .error fault) :
    (loadSchema config).run session = .error (.load fault) session := by
  rw [run_loadSchema, h]

/-- The check gives the violations of the schema that is loaded. -/
theorem run_validateSchema (config : String) (session : Session) :
    (validateSchema config).run session =
      match LoadedSchema.load session.workspace (.ofText config) with
      | .ok loaded => .ok loaded.schema.violations (session.afterLoad loaded)
      | .error fault => .error (.load fault) session := by
  rw [validateSchema]
  cases h : LoadedSchema.load session.workspace (.ofText config) with
  | ok loaded => exact Action.run_bind_of_ok (run_loadSchema_of_ok h)
  | error fault => exact Action.run_bind_of_error (run_loadSchema_of_error h)

/-! ## Compiling -/

/-- A compilation that is refused has logged the violations, and that is all. -/
theorem run_compileSchema_of_violations {r : CompileRequest} {session : Session}
    {loaded : LoadedSchema}
    (h : LoadedSchema.load session.workspace (.ofText r.config) = .ok loaded)
    (hfail : loaded.configuration.failOnViolations = true) (hne : loaded.schema.violations ≠ []) :
    (compileSchema r).run session =
      .error (.refused loaded.schema.violations)
        ((session.afterLoad loaded).logged (loaded.schema.violations.map .violation)) := by
  have hgate :
      (!loaded.schema.violations.isEmpty && loaded.configuration.failOnViolations) = true := by
    rw [hfail, Bool.and_true, Bool.not_eq_true', List.isEmpty_eq_false_iff]
    exact hne
  rw [compileSchema, Action.run_bind_of_ok (run_loadSchema_of_ok h)]
  dsimp only
  rw [Action.run_bind_of_ok (Action.run_forM_record Event.violation _ _), if_pos hgate]
  rfl

/-- A compilation that comes to an end gives the violations of the schema that is loaded. -/
theorem violations_of_run_compileSchema {r : CompileRequest} {session after : Session}
    {loaded : LoadedSchema} {outcome : CompileOutcome}
    (h : LoadedSchema.load session.workspace (.ofText r.config) = .ok loaded)
    (hrun : (compileSchema r).run session = .ok outcome after) :
    outcome.violations = loaded.schema.violations := by
  rw [compileSchema, Action.run_bind_of_ok (run_loadSchema_of_ok h)] at hrun
  refine Action.Gives.bind (P := fun outcome => outcome.violations = _) (fun _ => ?_) _ _ _ hrun
  dsimp only
  refine Action.Gives.ite (Action.Gives.throw_bind _ _) ?_
  -- What is left writes files; wherever they go, the outcome tells the violations.
  cases nonempty? r.outputDirectory
  case' some directory => refine Action.Gives.bind fun _ => ?_
  all_goals
    refine Action.Gives.bind fun _ => Action.Gives.bind fun _ => Action.Gives.bind fun _ => ?_
    refine Action.Gives.ite ?_ ?_
    · exact Action.Gives.bind fun _ => Action.Gives.pure rfl
    · exact Action.Gives.bind fun _ => Action.Gives.pure rfl

/-! ## All jobs -/

theorem run_compileSchema_of_loadFault {r : CompileRequest} {session : Session} {fault : LoadFault}
    (h : LoadedSchema.load session.workspace (.ofText r.config) = .error fault) :
    (compileSchema r).run session = .error (.load fault) session := by
  rw [compileSchema, Action.run_bind_of_error (run_loadSchema_of_error h)]

theorem run_reportSchema_of_loadFault {r : ReportRequest} {session : Session} {fault : LoadFault}
    (h : LoadedSchema.load session.workspace (.ofText r.config) = .error fault) :
    (reportSchema r).run session = .error (.load fault) session := by
  rw [reportSchema, Action.run_bind_of_error (run_loadSchema_of_error h)]

/-- A configuration is loaded before its schema. -/
theorem LoadedSchema.configuration_load {w : Workspace} {config : Path} {loaded : LoadedSchema}
    (h : LoadedSchema.load w config = .ok loaded) :
    Configuration.load w config = .ok loaded.configuration := by
  rw [LoadedSchema.load] at h
  cases hc : Configuration.load w config with
  | error fault =>
    rw [hc] at h
    cases h
  | ok configuration =>
    rw [hc] at h
    change (configuration.schema.schema >>= fun schema => _) = _ at h
    cases hs : configuration.schema.schema with
    | error fault =>
      rw [hs] at h
      cases h
    | ok schema =>
      rw [hs] at h
      cases h
      rfl

/-- **The jobs agree about a schema, and a refused one changes nothing.** If the schema cannot be
loaded, all jobs fail with the same fault, in the session in which they started. If the check finds
violations and the configuration makes them fatal, a compilation refuses these violations, one line
for their number and one entry for each, and leaves the workspace as it was. A compilation that
comes to an end gives the violations that the check gives. -/
theorem jobs_agree (session : Session) (config : String) :
    (∀ fault, LoadedSchema.load session.workspace (.ofText config) = .error fault →
      (validateSchema config).run session = .error (.load fault) session ∧
      (∀ r : CompileRequest, r.config = config →
        (compileSchema r).run session = .error (.load fault) session) ∧
      ∀ r : ReportRequest, r.config = config →
        (reportSchema r).run session = .error (.load fault) session) ∧
    (∀ configuration violations checked,
      Configuration.load session.workspace (.ofText config) = .ok configuration →
      configuration.failOnViolations = true →
      (validateSchema config).run session = .ok violations checked → violations ≠ [] →
      ∀ r : CompileRequest, r.config = config → ∃ fault after,
        (compileSchema r).run session = .error fault after ∧
        fault = .refused violations ∧
        fault.message = "\n".intercalate
          (("Schema has " ++ toString violations.length ++ " violation(s):") ::
            violations.map fun v => "  - " ++ v.text) ∧
        after.workspace = session.workspace) ∧
    ∀ (r : CompileRequest) outcome after, r.config = config →
      (compileSchema r).run session = .ok outcome after →
      ∃ checked, (validateSchema config).run session = .ok outcome.violations checked := by
  have hcheck := run_validateSchema config session
  cases hload : LoadedSchema.load session.workspace (.ofText config) with
  | error fault =>
    rw [hload] at hcheck
    refine ⟨?_, ?_, ?_⟩
    · rintro fault' hfault
      obtain rfl : fault = fault' := Except.error.inj hfault
      exact ⟨hcheck, fun r hr => run_compileSchema_of_loadFault (hr ▸ hload),
        fun r hr => run_reportSchema_of_loadFault (hr ▸ hload)⟩
    · intro configuration violations checked _ _ hrun
      rw [hcheck] at hrun
      cases hrun
    · rintro r outcome after rfl hrun
      rw [run_compileSchema_of_loadFault hload] at hrun
      cases hrun
  | ok loaded =>
    rw [hload] at hcheck
    refine ⟨?_, ?_, ?_⟩
    · intro fault hfault
      cases hfault
    · rintro configuration violations checked hconfig hfatal hrun hne r rfl
      obtain rfl : loaded.configuration = configuration :=
        Except.ok.inj ((LoadedSchema.configuration_load hload).symm.trans hconfig)
      rw [hcheck] at hrun
      cases hrun
      exact ⟨_, _, run_compileSchema_of_violations hload hfatal hne, rfl, rfl, rfl⟩
    · rintro r outcome after rfl hrun
      rw [violations_of_run_compileSchema hload hrun]
      exact ⟨_, hcheck⟩

end DocSchema
