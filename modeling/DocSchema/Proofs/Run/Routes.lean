import DocSchema.CommandLine.Run
import DocSchema.Proofs.Run.Delivery
import DocSchema.Proofs.Run.Reporting
import DocSchema.Proofs.Text.Lines

/-!
# The ways to a report

A report can be shown, saved where a request asks for it, or saved by a compilation where the
configuration asks for it. What is shown is what the files hold, up to the end of the last line: the
document ends its last line itself, the record does not, and a file of the record has this end in
addition. A shown report that is printed gets the same end.

## Main definitions

* `ReportFormat.missingEnd`: what a file has behind what is shown
* `EndsLine`: a text whose last line has an end

## Main results

* `Report.endsLine_markdown`, `Report.not_endsLine_recordText`: how the reports end
* `routes_agree`: the ways to a report give the same
-/

namespace DocSchema

/-! ## The last characters -/

/-- The last line of a text has an end. -/
def EndsLine (s : String) : Prop := s.toList.getLast? = some '\n'

theorem endsLine_append_newline (s : String) : EndsLine (s ++ "\n") := by
  rw [EndsLine, String.toList_append]
  exact List.getLast?_concat

/-- A text that is put behind something else still ends a line. -/
theorem EndsLine.prepend {s : String} (h : EndsLine s) (before : String) :
    EndsLine (before ++ s) := by
  rw [EndsLine] at h ⊢
  rw [String.toList_append, List.getLast?_append, h]
  rfl

/-- An empty line at the end of a page is the end of the line before it. -/
theorem joinLines_append_empty (lines : List String) :
    joinLines (lines ++ [""]) = Text.unlines lines := by
  rw [joinLines, Text.unlines]
  induction lines with
  | nil => rfl
  | cons line rest ih =>
    obtain ⟨next, others, hrest⟩ :=
      List.exists_cons_of_ne_nil (List.append_ne_nil_of_right_ne_nil rest (List.cons_ne_nil "" []))
    rw [hrest] at ih
    rw [List.cons_append, hrest, String.intercalate_cons_cons, ih, List.map_cons,
      String.join_cons]

theorem Report.endsLine_capacityPage (r : Report) : EndsLine (joinLines r.capacityPage) := by
  have hpage : ∃ lines, r.capacityPage = (lines ++ [freeTierNote]) ++ [""] :=
    ⟨_, (List.append_assoc _ [freeTierNote] [""]).symm⟩
  obtain ⟨lines, hlines⟩ := hpage
  rw [hlines, joinLines_append_empty, Text.unlines_append]
  exact (endsLine_append_newline freeTierNote).prepend _

/-- The document ends with the page of capacity estimates, and that one with an empty line. -/
theorem Report.endsLine_markdown (r : Report) : EndsLine r.markdown := by
  have hlast : EndsLine ("\n---\n\n" ++ joinLines r.capacityPage) :=
    r.endsLine_capacityPage.prepend _
  unfold markdown pages
  simp only [List.map_cons, List.map_nil, String.join_cons, String.join_nil, String.append_empty]
  exact (((((hlast.prepend _).prepend _).prepend _).prepend _).prepend _).prepend _

theorem Json.getLast?_prettyChars_object (level : Nat) (members : List (String × Json)) :
    (prettyChars level (object members)).getLast? = some '\x7d' := by
  cases members with
  | nil => rfl
  | cons member members =>
    rw [prettyChars, ← List.append_assoc, ← List.append_assoc, ← List.cons_append]
    exact List.getLast?_concat

/-- The record ends with a brace. -/
theorem Report.not_endsLine_recordText (r : Report) : ¬ EndsLine r.recordText := by
  rw [EndsLine, recordText, Json.pretty, String.toList_ofList, record,
    Json.getLast?_prettyChars_object]
  decide

/-! ## Printing -/

namespace Text

/-- A character is kept, held or dropped, whatever follows. -/
theorem exists_dropControls_cons (held : List Char) (c : Char) :
    ∃ kept next, ∀ rest, dropControls held (c :: rest) = kept ++ dropControls next rest := by
  match held with
  | [] =>
    by_cases hc : c = escapeChar
    · exact ⟨[], [c], fun rest => if_pos hc⟩
    · exact ⟨[c], [], fun rest => if_neg hc⟩
  | [d] =>
    by_cases hopen : c = '['
    · exact ⟨[], [d, c], fun rest => if_pos hopen⟩
    by_cases hc : c = escapeChar
    · exact ⟨[d], [c], fun rest => (if_neg hopen).trans (if_pos hc)⟩
    · exact ⟨[d, c], [], fun rest => (if_neg hopen).trans (if_neg hc)⟩
  | d :: e :: held =>
    by_cases hparameter : isControlParameter c = true
    · exact ⟨[], (d :: e :: held) ++ [c], fun rest => if_pos hparameter⟩
    by_cases hletter : c.isAlpha = true
    · exact ⟨[], [], fun rest => (if_neg hparameter).trans (if_pos hletter)⟩
    by_cases hc : c = escapeChar
    · exact ⟨d :: e :: held, [c], fun rest =>
        (if_neg hparameter).trans ((if_neg hletter).trans (if_pos hc))⟩
    · refine ⟨(d :: e :: held) ++ [c], [], fun rest =>
        (if_neg hparameter).trans ((if_neg hletter).trans ((if_neg hc).trans ?_))⟩
      rw [List.append_assoc, List.singleton_append]

/-- The end of a line breaks off a control sequence and is kept. -/
theorem dropControls_newline (held : List Char) : dropControls held ['\n'] = held ++ ['\n'] := by
  match held with
  | [] => rfl
  | [_] => rfl
  | _ :: _ :: _ => rfl

theorem getLast?_dropControls (held cs : List Char) :
    (dropControls held (cs ++ ['\n'])).getLast? = some '\n' := by
  induction cs generalizing held with
  | nil =>
    rw [List.nil_append, dropControls_newline]
    exact List.getLast?_concat
  | cons c cs ih =>
    obtain ⟨kept, next, hstep⟩ := exists_dropControls_cons held c
    rw [List.cons_append, hstep, List.getLast?_append, ih]
    rfl

/-- A text whose last line has an end is printed with one. -/
theorem endsLine_withoutControls {s : String} (h : EndsLine s) : EndsLine (withoutControls s) := by
  obtain ⟨cs, hcs⟩ := List.getLast?_eq_some_iff.mp h
  rw [EndsLine, withoutControls, String.toList_ofList, hcs]
  exact getLast?_dropControls [] cs

end Text

/-! ## Routes -/

/-- What the file of a report has behind what is shown of it. -/
def ReportFormat.missingEnd : ReportFormat → String
  | .structured => "\n"
  | .text | .workbook => ""

/-- A report that is shown in a format is what its file holds, up to the end of the last line. -/
theorem Report.content_of_shown? {report : Report} {format : ReportFormat} {shown : String}
    (h : report.shown? format = some shown) :
    report.content format = .text (shown ++ format.missingEnd) := by
  cases format with
  | structured =>
    cases h
    rfl
  | text =>
    cases h
    rw [ReportFormat.missingEnd, String.append_empty]
    rfl
  | workbook => cases h

/-- Only the document ends its last line. -/
theorem Report.endsLine_iff_of_shown? {report : Report} {format : ReportFormat} {shown : String}
    (h : report.shown? format = some shown) : EndsLine shown ↔ format = .text := by
  cases format with
  | structured =>
    cases h
    exact iff_of_false report.not_endsLine_recordText nofun
  | text =>
    cases h
    exact iff_of_true report.endsLine_markdown rfl
  | workbook => cases h

/-- A report is printed like its file. -/
theorem printText_of_shown? {report : Report} {format : ReportFormat} {shown : String}
    (h : report.shown? format = some shown) :
    CommandLine.printText shown = Text.withoutControls (shown ++ format.missingEnd) := by
  have hend := report.endsLine_iff_of_shown? h
  rw [EndsLine] at hend
  rw [CommandLine.printText]
  cases format with
  | structured =>
    rw [if_neg fun hshown => nomatch hend.mp hshown]
    rfl
  | text => rw [if_pos (hend.mpr rfl), ReportFormat.missingEnd, String.append_empty]
  | workbook => cases h

theorem endsLine_printText (s : String) : EndsLine (CommandLine.printText s) := by
  rw [CommandLine.printText]
  refine Text.endsLine_withoutControls ?_
  split
  · next h => exact h
  · exact endsLine_append_newline s

section Files

variable {session after : Session} {r : ReportRequest} {loaded : LoadedSchema}
  {format : ReportFormat}

/-- A report that is shown has been loaded and has no file to go to. -/
theorem of_run_reportSchema_shown {shown : String}
    (hrun : (reportSchema r).run session = .ok (.shown shown) after) :
    ∃ loaded format, LoadedSchema.load session.workspace (.ofText r.config) = .ok loaded ∧
      r.format? loaded.configuration.report = some format ∧
      loaded.schema.report.shown? format = some shown := by
  rw [run_reportSchema] at hrun
  cases hload : LoadedSchema.load session.workspace (.ofText r.config) with
  | error fault =>
    rw [hload] at hrun
    cases hrun
  | ok loaded =>
    rw [hload] at hrun
    dsimp only at hrun
    cases hformat : r.format? loaded.configuration.report with
    | none =>
      rw [hformat] at hrun
      cases hrun
    | some format =>
      rw [hformat] at hrun
      dsimp only at hrun
      refine ⟨loaded, format, rfl, hformat, ?_⟩
      cases hdestination : r.destination? loaded.configuration.report format with
      | some p =>
        rw [hdestination] at hrun
        obtain ⟨_, _, -, hrest⟩ := EStateM.run_bind_eq_ok_iff.mp hrun
        cases hrest
      | none =>
        rw [hdestination, giveReport] at hrun
        cases hshown : loaded.schema.report.shown? format with
        | none =>
          rw [hshown] at hrun
          cases hrun
        | some content =>
          rw [hshown] at hrun
          cases hrun
          rfl

/-- A report that goes to a file leaves its content there. -/
theorem hasFile_of_run_giveReport {report : Report} {p : Path} {outcome : ReportOutcome}
    (hrun : (giveReport report format (some p)).run session = .ok outcome after) :
    outcome = .saved (p.resolve session.workspace.current) ∧
      after.workspace.HasFile (p.resolve session.workspace.current) (report.content format) := by
  obtain ⟨written, s, hexport, hrest⟩ := EStateM.run_bind_eq_ok_iff.mp hrun
  cases hrest
  obtain ⟨hwritten, rfl⟩ :=
    written_of_exportTo .nil (Action.run_adaptExcept_eq_ok_iff.mp hexport)
  exact ⟨rfl, _, rfl, hwritten.find?_of_some (if_pos (beq_self_eq_true _))⟩

/-- A report that is not a workbook goes to the file that the request names. -/
theorem hasFile_of_run_reportSchema {output : String} {outcome : ReportOutcome}
    (hload : LoadedSchema.load session.workspace (.ofText r.config) = .ok loaded)
    (hformat : r.format? loaded.configuration.report = some format) (hfile : format ≠ .workbook)
    (hnamed : output ≠ "")
    (hrun : (reportSchema { r with output := some output }).run session = .ok outcome after) :
    outcome = .saved ((Path.ofText output).resolve session.workspace.current) ∧
      after.workspace.HasFile ((Path.ofText output).resolve session.workspace.current)
        (loaded.schema.report.content format) := by
  have hsame : ReportRequest.format? { r with output := some output }
      loaded.configuration.report = some format := hformat
  have hasked : nonempty? (some output) = some output := if_pos (bne_iff_ne.mpr hnamed)
  have hdestination : ReportRequest.destination? { r with output := some output }
      loaded.configuration.report format = some (Path.ofText output) := by
    rw [ReportRequest.destination?, if_neg hfile, hasked]
    rfl
  rw [run_reportSchema_of_ok (r := { r with output := some output }) hload, hsame] at hrun
  dsimp only at hrun
  rw [hdestination] at hrun
  exact @hasFile_of_run_giveReport (session.afterLoad loaded) after format _ _ outcome hrun

/-- A compilation leaves the report at the place that the configuration names: it is written last,
so nothing takes its place. -/
theorem hasFile_of_run_compileSchema {q : CompileRequest} {outcome : CompileOutcome} {p : Path}
    (hload : LoadedSchema.load session.workspace (.ofText q.config) = .ok loaded)
    (hasked : q.withReport = true) (hpath : loaded.configuration.report.path = some p)
    (hrun : (compileSchema q).run session = .ok outcome after) :
    outcome.report = some (p.resolve session.workspace.current) ∧
      after.workspace.HasFile (p.resolve session.workspace.current)
        (loaded.schema.report.content loaded.configuration.report.format) := by
  obtain ⟨loaded', hload', hdeliver⟩ := run_compileSchema_eq_ok hrun
  obtain rfl : loaded = loaded' := Except.ok.inj (hload.symm.trans hload')
  obtain ⟨hwritten, -, hreport⟩ :=
    @written_of_run_deliver (session.afterCompiling loaded) _ _ _ _ hdeliver
  have hfile : q.reportFile? loaded =
      some (p, loaded.schema.report.content loaded.configuration.report.format) := by
    rw [CompileRequest.reportFile?, if_pos hasked, hpath]
    rfl
  rw [hfile] at hreport
  refine ⟨hreport, _, rfl, hwritten.find?_of_some ?_⟩
  rw [CompileRequest.files, hfile, placed, List.map_append, List.reverse_append]
  exact if_pos (beq_self_eq_true _)

end Files

/-- **The ways to a report agree.** If a report is shown, the same request with a file leaves what
was shown in that file, and so does a compilation that exports a report of the same format, up to
the end of the last line, which the document has and the record lacks. What is printed of a report
that is shown is its file without control sequences, and its last line has an end. -/
theorem routes_agree {r : ReportRequest} {session shownIn : Session} {shown : String}
    (hrun : (reportSchema r).run session = .ok (.shown shown) shownIn) :
    ∃ configuration format,
      Configuration.load session.workspace (.ofText r.config) = .ok configuration ∧
      r.format? configuration.report = some format ∧
      (format = .text ∧ EndsLine shown ∨ format = .structured ∧ ¬ EndsLine shown) ∧
      (∀ output (other after : Session) outcome, output ≠ "" →
        other.workspace = session.workspace →
        (reportSchema { r with output := some output }).run other = .ok outcome after →
        outcome = .saved ((Path.ofText output).resolve session.workspace.current) ∧
        after.workspace.HasFile ((Path.ofText output).resolve session.workspace.current)
          (.text (shown ++ format.missingEnd))) ∧
      (∀ (q : CompileRequest) p (other after : Session) outcome, q.config = r.config →
        q.withReport = true → configuration.report.format = format →
        configuration.report.path = some p → other.workspace = session.workspace →
        (compileSchema q).run other = .ok outcome after →
        outcome.report = some (p.resolve session.workspace.current) ∧
        after.workspace.HasFile (p.resolve session.workspace.current)
          (.text (shown ++ format.missingEnd))) ∧
      (CommandLine.Command.printReport (.shown shown)).out =
        Text.withoutControls (shown ++ format.missingEnd) ∧
      EndsLine (CommandLine.Command.printReport (.shown shown)).out := by
  obtain ⟨loaded, format, hload, hformat, hshown⟩ := of_run_reportSchema_shown hrun
  have hcontent := Report.content_of_shown? hshown
  have hend := Report.endsLine_iff_of_shown? hshown
  refine ⟨loaded.configuration, format, LoadedSchema.configuration_load hload, hformat, ?_, ?_, ?_,
    printText_of_shown? hshown, endsLine_printText shown⟩
  · cases format with
    | structured => exact .inr ⟨rfl, fun h => nomatch hend.mp h⟩
    | text => exact .inl ⟨rfl, hend.mpr rfl⟩
    | workbook => cases hshown
  · intro output other after outcome houtput hworkspace hother
    rw [← hworkspace] at hload ⊢
    rw [← hcontent]
    have hfile : format ≠ .workbook := by
      rintro rfl
      cases hshown
    exact hasFile_of_run_reportSchema hload hformat hfile houtput hother
  · rintro q p other after outcome hconfig hasked rfl hpath hworkspace hother
    rw [← hworkspace] at hload ⊢
    rw [← hconfig] at hload
    rw [← hcontent]
    exact hasFile_of_run_compileSchema hload hasked hpath hother

/-- The report of one configuration is shown, saved and exported, and is the same each time. -/
theorem separateNames_report :
    ∃ shown shownIn saved compiled outcome delivered,
      (reportSchema { config := "c" }).run { workspace := workspaceWith separateNames } =
        .ok (.shown shown) shownIn ∧
      (reportSchema { config := "c", output := some "q" }).run
        { workspace := workspaceWith separateNames } = .ok outcome saved ∧
      (compileSchema { config := "c" }).run { workspace := workspaceWith separateNames } =
        .ok delivered compiled ∧
      saved.workspace.HasFile (.ofLocation ["d", "q"]) (.text shown) ∧
      compiled.workspace.HasFile (.ofLocation ["d", "r"]) (.text shown) ∧ EndsLine shown := by
  have hload : Configuration.load (workspaceWith separateNames) (.ofText "c") =
      .ok separateConfiguration := by decide +kernel
  obtain ⟨shown, shownIn, hshown⟩ : ∃ shown shownIn,
      (reportSchema { config := "c" }).run { workspace := workspaceWith separateNames } =
        .ok (.shown shown) shownIn := by
    obtain ⟨outcome, after, hrun, htest⟩ : ∃ outcome after,
        (reportSchema { config := "c" }).run { workspace := workspaceWith separateNames } =
          .ok outcome after ∧ (outcome matches .shown _) = true :=
      Action.exists_run_of_test (by decide +kernel)
    cases outcome with
    | shown content => exact ⟨content, after, hrun⟩
    | saved path => exact Bool.noConfusion htest
  obtain ⟨outcome, saved, hsaved, -⟩ : ∃ outcome saved,
      (reportSchema { config := "c", output := some "q" }).run
        { workspace := workspaceWith separateNames } = .ok outcome saved ∧ true = true :=
    Action.exists_run_of_test (by decide +kernel)
  obtain ⟨delivered, compiled, hcompiled, -⟩ : ∃ delivered compiled,
      (compileSchema { config := "c" }).run { workspace := workspaceWith separateNames } =
        .ok delivered compiled ∧ true = true := Action.exists_run_of_test (by decide +kernel)
  obtain ⟨configuration, format, hconfig, hformat, hend, hreports, hcompiles, -⟩ :=
    routes_agree hshown
  obtain rfl : configuration = separateConfiguration :=
    Except.ok.inj (hconfig.symm.trans hload)
  obtain rfl : format = .text := by
    have hname : ReportRequest.format? { config := "c" } separateConfiguration.report =
        some .text := by decide +kernel
    exact Option.some.inj (hformat.symm.trans hname)
  have hleft : saved.workspace.HasFile ((Path.ofText "q").resolve ["d"]) (.text (shown ++ "")) :=
    (hreports "q" _ saved outcome (by decide) rfl hsaved).2
  have hexported : compiled.workspace.HasFile ((Path.ofLocation ["d", "r"]).resolve ["d"])
      (.text (shown ++ "")) :=
    (hcompiles { config := "c" } (.ofLocation ["d", "r"]) _ compiled delivered rfl rfl rfl rfl rfl
      hcompiled).2
  have hsavedPlace : (Path.ofText "q").resolve ["d"] = .ofLocation ["d", "q"] := by decide +kernel
  have hexportedPlace : (Path.ofLocation ["d", "r"]).resolve ["d"] = .ofLocation ["d", "r"] := by
    decide +kernel
  rw [hsavedPlace, String.append_empty] at hleft
  rw [hexportedPlace, String.append_empty] at hexported
  have hendsLine : EndsLine shown := by
    obtain ⟨-, h⟩ | ⟨h, -⟩ := hend
    · exact h
    · cases h
  exact ⟨shown, shownIn, saved, compiled, outcome, delivered, hshown, hsaved, hcompiled, hleft,
    hexported, hendsLine⟩

end DocSchema
