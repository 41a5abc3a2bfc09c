import PanelLayout.Command.Check
import PanelLayout.Proofs.ReportText
import PanelLayout.Proofs.Steps

/-!
# What a check leaves behind

A check is made of steps that may fail: the rules are loaded, and then the documents are read one
after the other.  Nothing is written before all of them have succeeded.  How texts are read is left
open: all that is said holds of every reader.

* `RulesFail` and `RulesLoad` say what may become of the rules, and `Reports` what is to be
  reported of a document.
* `FirstFailure` is the first of the steps that fails, by the line that it is told with.
* `exists_checkFiles_eq_error_iff` and `checkFiles_eq_ok_iff` say that a check comes to the first
  failure, or else to the reports on all documents.

`check_all_or_nothing` reads the outcome off these two.
-/

namespace PanelLayout

namespace Command

variable {reader : Reader} {files : Files} {request : Check} {rules : RuleSet} {line : String}

/-! ## §1 The rules -/

/-- No rules can be had from a rules file, and the line tells why: the file cannot be read, it is no
document of overrides, or the overrides cannot be applied.  A cause that repeats what has been told
is told again. -/
inductive RulesFail (reader : Reader) (files : Files) (path : String) : String → Prop where
  | unreadable {cause : ReadError} (hread : files path = .error cause) :
      RulesFail reader files path
        ("error: failed to load rule overrides from " ++ path ++ ": Failed to read '" ++ path ++
          "': " ++ cause.message ++ ": " ++ cause.message ++ "\n")
  | undecodable {text cause : String} (hread : files path = .ok text)
      (hdecode : reader.overrides text = .error cause) :
      RulesFail reader files path
        ("error: failed to load rule overrides from " ++ path ++ ": YAML error: " ++ cause ++
          ": " ++ cause ++ "\n")
  | refused {text : String} {overrides : Overrides} {cause : OverrideError}
      (hread : files path = .ok text) (hdecode : reader.overrides text = .ok overrides)
      (happly : overrides.apply .builtin = .error cause) :
      RulesFail reader files path
        ("error: Invalid rule override '" ++ cause.key ++ "': " ++ cause.reason ++ "\n")

/-- The rules of a check are the built-in ones, adjusted by the rules file if there is one. -/
inductive RulesLoad (reader : Reader) (files : Files) : Option String → RuleSet → Prop where
  | builtin : RulesLoad reader files none .builtin
  | adjusted {path text : String} {overrides : Overrides} {rules : RuleSet}
      (hread : files path = .ok text) (hdecode : reader.overrides text = .ok overrides)
      (happly : overrides.apply .builtin = .ok rules) : RulesLoad reader files (some path) rules

theorem Failure.line_of_unreadable (path : String) (cause : ReadError) :
    Failure.line (.rulesNotLoaded path (.unreadable path cause)) =
      "error: failed to load rule overrides from " ++ path ++ ": Failed to read '" ++ path ++
        "': " ++ cause.message ++ ": " ++ cause.message ++ "\n" := by
  have hline : Failure.line (.rulesNotLoaded path (.unreadable path cause)) =
      "error: failed to load rule overrides from " ++ path ++ ": " ++
        ("Failed to read '" ++ path ++ "': " ++ cause.message) ++ ": " ++ cause.message ++
          "\n" := rfl
  have hjoin : ": Failed to read '" = ": " ++ "Failed to read '" := by decide +kernel
  rw [hline, hjoin]
  simp only [String.append_assoc]

theorem Failure.line_of_undecodable (path cause : String) :
    Failure.line (.rulesNotLoaded path (.undecodable cause)) =
      "error: failed to load rule overrides from " ++ path ++ ": YAML error: " ++ cause ++ ": " ++
        cause ++ "\n" := by
  have hline : Failure.line (.rulesNotLoaded path (.undecodable cause)) =
      "error: failed to load rule overrides from " ++ path ++ ": " ++ ("YAML error: " ++ cause) ++
        ": " ++ cause ++ "\n" := rfl
  have hjoin : ": YAML error: " = ": " ++ "YAML error: " := by decide +kernel
  rw [hline, hjoin]
  simp only [String.append_assoc]

theorem Failure.line_of_refused (cause : OverrideError) :
    Failure.line (.rulesRefused cause) =
      "error: Invalid rule override '" ++ cause.key ++ "': " ++ cause.reason ++ "\n" := by
  have hline : Failure.line (.rulesRefused cause) =
      "error: " ++ ("Invalid rule override '" ++ cause.key ++ "': " ++ cause.reason) ++ "\n" := rfl
  have hjoin : "error: Invalid rule override '" = "error: " ++ "Invalid rule override '" := by
    decide +kernel
  rw [hline, hjoin]
  simp only [String.append_assoc]

theorem loadRules_of_rulesLoad {path? : Option String} (h : RulesLoad reader files path? rules) :
    loadRules reader files path? = .ok rules := by
  cases h with
  | builtin => rfl
  | adjusted hread hdecode happly =>
    simp [loadRules, loadWith, hread, hdecode, happly, Except.mapError]

theorem loadRules_of_rulesFail {path : String} (h : RulesFail reader files path line) :
    ∃ failure, loadRules reader files (some path) = .error failure ∧ failure.line = line := by
  cases h with
  | @unreadable cause hread =>
    refine ⟨.rulesNotLoaded path (.unreadable path cause), ?_, Failure.line_of_unreadable ..⟩
    simp [loadRules, loadWith, hread]
  | @undecodable text cause hread hdecode =>
    refine ⟨.rulesNotLoaded path (.undecodable cause), ?_, Failure.line_of_undecodable ..⟩
    simp [loadRules, loadWith, hread, hdecode, Except.mapError]
  | @refused text overrides cause hread hdecode happly =>
    refine ⟨.rulesRefused cause, ?_, Failure.line_of_refused cause⟩
    simp [loadRules, loadWith, hread, hdecode, happly, Except.mapError]

/-- A rules file either gives rules or fails to. -/
theorem rulesLoad_or_rulesFail (reader : Reader) (files : Files) (path : String) :
    (∃ rules, RulesLoad reader files (some path) rules) ∨
      ∃ line, RulesFail reader files path line := by
  cases hread : files path with
  | error cause => exact .inr ⟨_, .unreadable hread⟩
  | ok text =>
    cases hdecode : reader.overrides text with
    | error cause => exact .inr ⟨_, .undecodable hread hdecode⟩
    | ok overrides =>
      cases happly : overrides.apply .builtin with
      | error cause => exact .inr ⟨_, .refused hread hdecode happly⟩
      | ok rules => exact .inl ⟨rules, .adjusted hread hdecode happly⟩

theorem loadRules_eq_ok_iff {path? : Option String} :
    loadRules reader files path? = .ok rules ↔ RulesLoad reader files path? rules := by
  refine ⟨fun h => ?_, loadRules_of_rulesLoad⟩
  cases path? with
  | none =>
    cases h
    exact .builtin
  | some path =>
    rcases rulesLoad_or_rulesFail reader files path with ⟨rules', hload⟩ | ⟨line, hfail⟩
    · rw [loadRules_of_rulesLoad hload] at h
      cases h
      exact hload
    · obtain ⟨failure, hfailure, -⟩ := loadRules_of_rulesFail hfail
      rw [hfailure] at h
      cases h

theorem rulesFail_of_loadRules {path? : Option String} {failure : Failure}
    (h : loadRules reader files path? = .error failure) :
    ∃ path, path? = some path ∧ RulesFail reader files path failure.line := by
  cases path? with
  | none => cases h
  | some path =>
    rcases rulesLoad_or_rulesFail reader files path with ⟨rules, hload⟩ | ⟨line, hfail⟩
    · rw [loadRules_of_rulesLoad hload] at h
      cases h
    · obtain ⟨failure', hfailure, rfl⟩ := loadRules_of_rulesFail hfail
      rw [hfailure] at h
      cases h
      exact ⟨path, rfl, hfail⟩

/-! ## §2 The documents -/

/-- The report on a document is made of its text and of nothing else. -/
def Reports (reader : Reader) (files : Files) (rules : RuleSet) (path : String)
    (report : FileReport) : Prop :=
  ∃ text, files path = .ok text ∧
    report = ⟨path, Document.validateValue rules (reader.value text)⟩

theorem checkFile_eq_ok_iff {path : String} {report : FileReport} :
    checkFile reader files rules path = .ok report ↔ Reports reader files rules path report := by
  unfold checkFile Reports
  cases files path with
  | error cause => simp
  | ok text => simp [eq_comm]

theorem exists_checkFile_eq_ok_iff {path : String} :
    (∃ report, checkFile reader files rules path = .ok report) ↔
      ∃ text, files path = .ok text := by
  unfold checkFile
  cases files path <;> simp

theorem checkFile_eq_error_iff {path : String} {failure : Failure} :
    checkFile reader files rules path = .error failure ↔
      ∃ cause, files path = .error cause ∧ failure = .documentUnreadable path cause := by
  unfold checkFile
  cases files path with
  | error cause => simp [eq_comm]
  | ok text => simp

/-- The first failure of a check, by its line: that of the rules file, and if that gives rules, the
first document that cannot be read. -/
inductive FirstFailure (reader : Reader) (files : Files) (request : Check) : String → Prop where
  | rules {path line : String} (hpath : request.rules = some path)
      (hfail : RulesFail reader files path line) : FirstFailure reader files request line
  | document {rules : RuleSet} {before after : List String} {path : String} {cause : ReadError}
      (hload : RulesLoad reader files request.rules rules)
      (hfiles : request.files = before ++ path :: after)
      (hbefore : ∀ earlier ∈ before, ∃ text, files earlier = .ok text)
      (hread : files path = .error cause) :
      FirstFailure reader files request
        ("error: failed to read " ++ path ++ ": " ++ cause.message ++ "\n")

theorem firstFailure_of_checkFiles {failure : Failure}
    (h : checkFiles reader files request = .error failure) :
    FirstFailure reader files request failure.line := by
  -- The documents are read only once there are rules.
  cases hrules : loadRules reader files request.rules with
  | error failure' =>
    rw [checkFiles, hrules] at h
    cases h
    obtain ⟨path, hpath, hfail⟩ := rulesFail_of_loadRules hrules
    exact .rules hpath hfail
  | ok rules =>
    rw [checkFiles, hrules] at h
    obtain ⟨before, path, after, hfiles, hbefore, hfailing⟩ := mapM_eq_error_iff.1 h
    obtain ⟨cause, hread, rfl⟩ := checkFile_eq_error_iff.1 hfailing
    exact .document (loadRules_eq_ok_iff.1 hrules) hfiles
      (fun earlier hmem => exists_checkFile_eq_ok_iff.1 (hbefore earlier hmem)) hread

theorem checkFiles_of_firstFailure (h : FirstFailure reader files request line) :
    ∃ failure, checkFiles reader files request = .error failure ∧ failure.line = line := by
  cases h with
  | rules hpath hfail =>
    obtain ⟨failure, hfailure, hline⟩ := loadRules_of_rulesFail hfail
    refine ⟨failure, ?_, hline⟩
    rw [checkFiles, hpath, hfailure]
    rfl
  | @document rules before after path cause hload hfiles hbefore hread =>
    refine ⟨.documentUnreadable path cause, ?_, rfl⟩
    rw [checkFiles, loadRules_of_rulesLoad hload]
    exact mapM_eq_error_iff.2 ⟨_, _, _, hfiles,
      fun earlier hmem => exists_checkFile_eq_ok_iff.2 (hbefore earlier hmem),
      checkFile_eq_error_iff.2 ⟨_, hread, rfl⟩⟩

theorem exists_checkFiles_eq_error_iff :
    (∃ failure, checkFiles reader files request = .error failure ∧ failure.line = line) ↔
      FirstFailure reader files request line := by
  refine ⟨?_, checkFiles_of_firstFailure⟩
  rintro ⟨failure, hcheck, rfl⟩
  exact firstFailure_of_checkFiles hcheck

theorem checkFiles_eq_ok_iff {reports : List FileReport} :
    checkFiles reader files request = .ok reports ↔
      ∃ rules, RulesLoad reader files request.rules rules ∧
        List.Forall₂ (Reports reader files rules) request.files reports := by
  constructor
  · intro h
    cases hrules : loadRules reader files request.rules with
    | error failure =>
      rw [checkFiles, hrules] at h
      cases h
    | ok rules =>
      rw [checkFiles, hrules] at h
      exact ⟨rules, loadRules_eq_ok_iff.1 hrules,
        (mapM_eq_ok_iff.1 h).imp fun _ _ => checkFile_eq_ok_iff.1⟩
  · rintro ⟨rules, hload, hreports⟩
    rw [checkFiles, loadRules_of_rulesLoad hload]
    exact mapM_eq_ok_iff.2 (hreports.imp fun _ _ => checkFile_eq_ok_iff.2)

/-- Every document that is asked for is read, and its report is among the others. -/
theorem exists_report_of_mem {paths : List String} {reports : List FileReport}
    (h : List.Forall₂ (Reports reader files rules) paths reports) {path : String}
    (hpath : path ∈ paths) :
    ∃ text, files path = .ok text ∧
      ⟨path, Document.validateValue rules (reader.value text)⟩ ∈ reports := by
  obtain ⟨_, hmem, text, hread, rfl⟩ := exists_mem_of_forall₂ h hpath
  exact ⟨text, hread, hmem⟩

/-- Something fails if no rules can be had, or if some document cannot be read. -/
theorem exists_firstFailure_iff :
    (∃ line, FirstFailure reader files request line) ↔
      (∃ path line, request.rules = some path ∧ RulesFail reader files path line) ∨
        ∃ path ∈ request.files, ∃ cause, files path = .error cause := by
  constructor
  · rintro ⟨line, hfailure⟩
    cases hfailure with
    | rules hpath hfail => exact .inl ⟨_, _, hpath, hfail⟩
    | document hload hfiles hbefore hread =>
      refine .inr ⟨_, ?_, _, hread⟩
      rw [hfiles]
      exact List.mem_append_right _ (List.mem_cons_self ..)
  · rintro (⟨path, line, hpath, hfail⟩ | ⟨path, hmem, cause, hread⟩)
    · exact ⟨line, .rules hpath hfail⟩
    · -- Without a failure the document would have been read.
      cases hcheck : checkFiles reader files request with
      | error failure => exact ⟨failure.line, firstFailure_of_checkFiles hcheck⟩
      | ok reports =>
        obtain ⟨rules, -, hreports⟩ := checkFiles_eq_ok_iff.1 hcheck
        obtain ⟨text, hread', -⟩ := exists_report_of_mem hreports hmem
        rw [hread] at hread'
        cases hread'

/-! ## §3 Reports -/

theorem exitCode_eq (reports : List FileReport) :
    exitCode reports = if ∀ report ∈ reports, report.violations = [] then 0 else 1 := by
  simp [exitCode, FileReport.isValid]

theorem exitCode_ne_two (reports : List FileReport) : exitCode reports ≠ 2 := by
  unfold exitCode
  split <;> decide

theorem check_of_firstFailure (h : FirstFailure reader files request line) :
    check reader files request = ⟨2, "", line⟩ := by
  obtain ⟨failure, hcheck, rfl⟩ := checkFiles_of_firstFailure h
  rw [check, hcheck]

theorem check_of_reports {reports : List FileReport}
    (h : checkFiles reader files request = .ok reports) :
    check reader files request =
      if request.json then ⟨exitCode reports, Report.json reports, ""⟩
      else ⟨exitCode reports, Report.valid reports, Report.invalid reports⟩ := by
  rw [check, h]

theorem exit_of_reports {reports : List FileReport}
    (h : checkFiles reader files request = .ok reports) :
    (check reader files request).exit = exitCode reports := by
  rw [check_of_reports h]
  split <;> rfl

theorem exit_eq_two_iff :
    (check reader files request).exit = 2 ↔ ∃ line, FirstFailure reader files request line := by
  constructor
  · intro h
    cases hcheck : checkFiles reader files request with
    | error failure => exact ⟨failure.line, firstFailure_of_checkFiles hcheck⟩
    | ok reports =>
      rw [exit_of_reports hcheck] at h
      exact absurd h (exitCode_ne_two reports)
  · rintro ⟨line, hfailure⟩
    rw [check_of_firstFailure hfailure]

/-- The reports on the documents of a check without a failure. -/
theorem exists_reports_of_exit_ne_two (h : (check reader files request).exit ≠ 2) :
    ∃ reports, checkFiles reader files request = .ok reports := by
  cases hcheck : checkFiles reader files request with
  | error failure => exact absurd (exit_eq_two_iff.2 ⟨_, firstFailure_of_checkFiles hcheck⟩) h
  | ok reports => exact ⟨reports, rfl⟩

/-- A text that is refused is told of in one violation, with the reason for which it is. -/
theorem reports_of_refused {path text reason : String} (hread : files path = .ok text)
    (hrefused : reader.value text = .error reason) (rules : RuleSet) :
    Reports reader files rules path ⟨path, [⟨.nowhere, .unparsableDocument reason⟩]⟩ :=
  ⟨text, hread, by rw [hrefused]; rfl⟩

/-! ## §4 The outcome -/

/-- **All or nothing.**  A check exits with 2 if no rules can be had from the rules file or if some
document cannot be read.  Then nothing goes to the one stream, and to the other the line of the
first failure, the rules file coming before the documents and these in their order.

Otherwise all documents are reported, each with what its text is told under the rules, in their
order and as often as they were asked for.  The exit code is 0 if none has a violation and 1 if
one has; a text that is no YAML has one.  In JSON the reports go to the first stream, one entry for
each; as text, the documents without violations go to the first stream and the others to the second.
The exit code is the same for both. -/
theorem check_all_or_nothing (reader : Reader) (files : Files) (request : Check) :
    ((check reader files request).exit = 2 ↔
      (∃ path line, request.rules = some path ∧ RulesFail reader files path line) ∨
        ∃ path ∈ request.files, ∃ cause, files path = .error cause) ∧
    ((check reader files request).exit = 2 → ∃! line, FirstFailure reader files request line) ∧
    (∀ line, FirstFailure reader files request line →
      check reader files request = ⟨2, "", line⟩) ∧
    ((check reader files request).exit ≠ 2 → ∃ rules reports,
      RulesLoad reader files request.rules rules ∧
      List.Forall₂ (Reports reader files rules) request.files reports ∧
      (check reader files request).exit =
        (if ∀ report ∈ reports, report.violations = [] then 0 else 1) ∧
      (request.json = true →
        (check reader files request).stdout =
          (Json.array (reports.map fun report => .object [
            ("file", .string report.file),
            ("violations", .array (report.violations.map fun violation => .object [
              ("path", .string violation.path),
              ("kind", .string violation.problem.code),
              ("message", .string violation.message)]))])).render ++ "\n" ∧
        (check reader files request).stdout =
          (if reports = [] then "[]"
            else "[\n" ++ ",\n".intercalate (reports.map FileReport.entry) ++ "\n]") ++ "\n" ∧
        (check reader files request).stderr = "") ∧
      (request.json = false →
        (check reader files request).stdout =
          String.join ((reports.filter (·.violations.isEmpty)).map fun report =>
            "✓ " ++ report.file ++ " is valid\n") ∧
        (check reader files request).stderr =
          String.join ((reports.filter (!·.violations.isEmpty)).map fun report =>
            "✗ " ++ report.file ++ " has " ++ toString report.violations.length ++
              " violation(s):\n" ++
              String.join ((report.violations.zipIdx 1).map fun (violation, i) =>
                "  " ++ toString i ++ ". " ++
                  (if violation.path = "" then violation.message
                    else "[" ++ violation.path ++ "] " ++ violation.message) ++ "\n")))) ∧
    (∀ path ∈ request.files, ∀ text reason, files path = .ok text →
      reader.value text = .error reason →
        (check reader files request).exit ≠ 0 ∧
        ∀ rules, Reports reader files rules path ⟨path, [⟨.nowhere, .unparsableDocument reason⟩]⟩) ∧
    ∀ json, (check reader files { request with json := json }).exit =
      (check reader files request).exit := by
  refine ⟨exit_eq_two_iff.trans exists_firstFailure_iff, ?unique, fun _ => check_of_firstFailure,
    ?reports, ?refused, ?json⟩
  case unique =>
    intro h
    obtain ⟨line, hfailure⟩ := exit_eq_two_iff.1 h
    refine ⟨line, hfailure, fun other hother => ?_⟩
    -- Both are what the check writes.
    have heq := (check_of_firstFailure hother).symm.trans (check_of_firstFailure hfailure)
    exact (Outcome.mk.inj heq).2.2
  case reports =>
    intro h
    obtain ⟨reports, hcheck⟩ := exists_reports_of_exit_ne_two h
    obtain ⟨rules, hload, hreports⟩ := checkFiles_eq_ok_iff.1 hcheck
    refine ⟨rules, reports, hload, hreports, ?_, fun hjson => ?_, fun htext => ?_⟩
    · rw [exit_of_reports hcheck, exitCode_eq]
    · rw [check_of_reports hcheck, if_pos hjson]
      exact ⟨rfl, Report.json_eq reports, rfl⟩
    · rw [check_of_reports hcheck, htext]
      refine ⟨rfl, ?_⟩
      simp only [← FileReport.numbered_eq]
      rfl
  case refused =>
    intro path hpath text reason hread hrefused
    refine ⟨fun hexit => ?_, reports_of_refused hread hrefused⟩
    have hne : (check reader files request).exit ≠ 2 := by rw [hexit]; decide
    obtain ⟨reports, hcheck⟩ := exists_reports_of_exit_ne_two hne
    obtain ⟨rules, -, hreports⟩ := checkFiles_eq_ok_iff.1 hcheck
    obtain ⟨text', hread', hreport⟩ := exists_report_of_mem hreports hpath
    rw [hread] at hread'
    cases hread'
    rw [exit_of_reports hcheck, exitCode_eq] at hexit
    split at hexit
    · next hvalid =>
      -- What is told of the text is the one violation that it cannot be read.
      have hnil := hvalid _ hreport
      rw [hrefused] at hnil
      cases hnil
    · cases hexit
  case json =>
    -- The form of the report plays no part in what is to be reported.
    intro json
    cases hcheck : checkFiles reader files request with
    | error failure =>
      have hcheck' : checkFiles reader files { request with json := json } = .error failure :=
        hcheck
      rw [check, check, hcheck, hcheck']
    | ok reports =>
      have hcheck' : checkFiles reader files { request with json := json } = .ok reports := hcheck
      rw [exit_of_reports hcheck, exit_of_reports hcheck']

/-! ## §5 A directory -/

/-- A directory with a file for each text that `sampleReader` knows, and one for a text that it does
not. -/
def sampleFiles : Files
  | "page" => .ok "page"
  | "list" => .ok "list"
  | "torn" => .ok "torn"
  | "wide" => .ok "wide"
  | "flat" => .ok "flat"
  | _ => .error .notFound

/-- A reader of a few texts: `page` is a line that needs a wide canvas, `wide` makes one, and `flat`
asks for one without height. -/
def sampleReader : Reader where
  value
    | "page" => .ok (.mapping [(.string "id", .string "rule"), (.string "type", .string "line"),
        (.string "start", .sequence [.integer 0, .integer 0]),
        (.string "end", .sequence [.integer 900, .integer 0]),
        (.string "thickness", .integer 1), (.string "is_absolute", .boolean true)])
    | "list" => .ok (.sequence [])
    | _ => .error "unexpected end"
  overrides
    | "wide" => .ok { Overrides.none with canvas := some ⟨1000, 480⟩ }
    | "flat" => .ok { Overrides.none with canvas := some ⟨1000, 0⟩ }
    | _ => .error "unknown field"

/-- A rules file that is missing, undecodable or refused is told before any document.  Of two
missing documents the first is told, and not the one before it, which has been read.  Otherwise each
document is reported each time it is asked for, under the rules of the file if there is one, with
the same exit code for both sorts of report. -/
theorem check_sampleFiles :
    check sampleReader sampleFiles ⟨["gone"], some "lost", false⟩ =
        ⟨2, "", "error: failed to load rule overrides from lost: Failed to read 'lost': " ++
          "No such file or directory (os error 2): No such file or directory (os error 2)\n"⟩ ∧
      check sampleReader sampleFiles ⟨["gone"], some "torn", true⟩ =
        ⟨2, "", "error: failed to load rule overrides from torn: " ++
          "YAML error: unknown field: unknown field\n"⟩ ∧
      check sampleReader sampleFiles ⟨["page"], some "flat", false⟩ =
        ⟨2, "", "error: Invalid rule override 'canvas': width and height must be positive\n"⟩ ∧
      check sampleReader sampleFiles ⟨["page", "gone", "lost"], some "wide", true⟩ =
        ⟨2, "", "error: failed to read gone: No such file or directory (os error 2)\n"⟩ ∧
      check sampleReader sampleFiles ⟨["page", "page"], some "wide", false⟩ =
        ⟨0, "✓ page is valid\n✓ page is valid\n", ""⟩ ∧
      (check sampleReader sampleFiles ⟨["page", "page"], some "wide", true⟩).exit = 0 ∧
      check sampleReader sampleFiles ⟨["list", "page", "torn"], some "wide", false⟩ =
        ⟨1, "✓ page is valid\n",
          "✗ list has 1 violation(s):\n  1. YAML syntax error: document root must be a mapping\n" ++
          "✗ torn has 1 violation(s):\n  1. YAML syntax error: unexpected end\n"⟩ ∧
      check sampleReader sampleFiles ⟨["page"], none, false⟩ =
        ⟨1, "", "✗ page has 1 violation(s):\n  1. [root.end.x] Absolute coordinate x=900 " ++
          "outside the canvas. Expected 0 <= x <= 800\n"⟩ ∧
      check sampleReader sampleFiles ⟨["page", "torn"], some "wide", true⟩ =
        ⟨1, "[\n" ++
          "  \x7b\n" ++
          "    \"file\": \"page\",\n" ++
          "    \"violations\": []\n" ++
          "  \x7d,\n" ++
          "  \x7b\n" ++
          "    \"file\": \"torn\",\n" ++
          "    \"violations\": [\n" ++
          "      \x7b\n" ++
          "        \"path\": \"\",\n" ++
          "        \"kind\": \"UnparsableDocument\",\n" ++
          "        \"message\": \"YAML syntax error: unexpected end\"\n" ++
          "      \x7d\n" ++
          "    ]\n" ++
          "  \x7d\n" ++
          "]\n", ""⟩ := by
  have hlost : RulesFail sampleReader sampleFiles "lost" _ := .unreadable rfl
  have htorn : RulesFail sampleReader sampleFiles "torn" _ := .undecodable rfl rfl
  have hflat : RulesFail sampleReader sampleFiles "flat" _ := .refused rfl rfl rfl
  have hwide : RulesLoad sampleReader sampleFiles (some "wide") _ := .adjusted rfl rfl rfl
  have hgone : FirstFailure sampleReader sampleFiles
      ⟨["page", "gone", "lost"], some "wide", true⟩ _ :=
    .document hwide rfl (List.forall_mem_singleton.2 ⟨_, rfl⟩) rfl
  have hline : ∀ request line, FirstFailure sampleReader sampleFiles request line →
      check sampleReader sampleFiles request = ⟨2, "", line⟩ := fun request =>
    (check_all_or_nothing sampleReader sampleFiles request).2.2.1
  have hpage : check sampleReader sampleFiles ⟨["page", "page"], some "wide", false⟩ =
      ⟨0, "✓ page is valid\n✓ page is valid\n", ""⟩ := by decide +kernel
  obtain ⟨-, -, -, -, -, hjson⟩ :=
    check_all_or_nothing sampleReader sampleFiles ⟨["page", "page"], some "wide", false⟩
  refine ⟨hline _ _ (.rules rfl hlost), hline _ _ (.rules rfl htorn), hline _ _ (.rules rfl hflat),
    hline _ _ hgone, hpage, ?_, ?_, ?_, ?_⟩
  · rw [hjson true, hpage]
  · decide +kernel
  · decide +kernel
  · decide +kernel

end Command

end PanelLayout
