import PanelLayout.Report

/-!
# The texts of reports

What a report is made of, written out: `FileReport.entry` is the text of a document in a JSON
report, in which the text of each of its violations stands, and `Report.json_eq` puts a whole report
together from such entries.  `FileReport.numbered_eq` writes out the lines of a text report.
-/

namespace PanelLayout

/-! ## §1 JSON -/

namespace Json

theorem renderItemsAt_eq_map (level : Nat) (items : List Json) :
    renderItemsAt level items = items.map (renderAt level) := by
  induction items with
  | nil => rfl
  | cons item rest ih => rw [renderItemsAt, ih, List.map_cons]

/-- An array is its items, one to a line, unless it has none. -/
theorem renderAt_array {α : Type} (level : Nat) (toJson : α → Json) (items : List α) :
    renderAt level (.array (items.map toJson)) =
      if items = [] then "[]"
      else "[\n" ++ ",\n".intercalate
        (items.map fun item => margin (level + 1) ++ renderAt (level + 1) (toJson item)) ++
          "\n" ++ margin level ++ "]" := by
  have hopen : "[\n" = "[" ++ "\n" := by decide +kernel
  rw [renderAt, renderItemsAt_eq_map, List.map_map, enclose, List.isEmpty_map, List.map_map]
  simp only [List.isEmpty_iff, hopen]
  rfl

end Json

open Json (margin renderAt)

/-- The text of a violation in a JSON report. -/
def Violation.entry (violation : Violation) : String :=
  "      \x7b\n" ++
    "        \"path\": " ++ Json.quote violation.path ++ ",\n" ++
    "        \"kind\": " ++ Json.quote violation.problem.code ++ ",\n" ++
    "        \"message\": " ++ Json.quote violation.message ++ "\n" ++
    "      \x7d"

/-- The text of a document in a JSON report. -/
def FileReport.entry (report : FileReport) : String :=
  "  \x7b\n" ++
    "    \"file\": " ++ Json.quote report.file ++ ",\n" ++
    "    \"violations\": " ++
      (if report.violations = [] then "[]"
        else "[\n" ++ ",\n".intercalate (report.violations.map Violation.entry) ++ "\n    ]") ++
      "\n" ++
    "  \x7d"

theorem Violation.margin_append_renderAt (violation : Violation) :
    margin 3 ++ renderAt 3 violation.toJson = violation.entry := by
  have hobject : renderAt 3 violation.toJson = "\x7b" ++ "\n" ++
      (margin 4 ++ (Json.quote "path" ++ ": " ++ Json.quote violation.path) ++ ",\n" ++
        (margin 4 ++ (Json.quote "kind" ++ ": " ++ Json.quote violation.problem.code)) ++ ",\n" ++
        (margin 4 ++ (Json.quote "message" ++ ": " ++ Json.quote violation.message))) ++
      "\n" ++ margin 3 ++ "\x7d" := rfl
  have hopen : "      \x7b\n" = margin 3 ++ ("\x7b" ++ "\n") := by decide +kernel
  have hpath : "        \"path\": " = margin 4 ++ (Json.quote "path" ++ ": ") := by decide +kernel
  have hkind : "        \"kind\": " = margin 4 ++ (Json.quote "kind" ++ ": ") := by decide +kernel
  have hmessage : "        \"message\": " = margin 4 ++ (Json.quote "message" ++ ": ") := by
    decide +kernel
  have hclose : "      \x7d" = margin 3 ++ "\x7d" := by decide +kernel
  delta entry
  rw [hobject, hopen, hpath, hkind, hmessage, hclose]
  simp only [String.append_assoc]

theorem FileReport.margin_append_renderAt (report : FileReport) :
    margin 1 ++ renderAt 1 report.toJson = report.entry := by
  have hobject : renderAt 1 report.toJson = "\x7b" ++ "\n" ++
      (margin 2 ++ (Json.quote "file" ++ ": " ++ Json.quote report.file) ++ ",\n" ++
        (margin 2 ++ (Json.quote "violations" ++ ": " ++
          renderAt 2 (.array (report.violations.map Violation.toJson))))) ++
      "\n" ++ margin 1 ++ "\x7d" := rfl
  have hentries :
      (fun violation : Violation => margin (2 + 1) ++ renderAt (2 + 1) violation.toJson) =
        Violation.entry := funext Violation.margin_append_renderAt
  have hopen : "  \x7b\n" = margin 1 ++ ("\x7b" ++ "\n") := by decide +kernel
  have hfile : "    \"file\": " = margin 2 ++ (Json.quote "file" ++ ": ") := by decide +kernel
  have hviolations : "    \"violations\": " = margin 2 ++ (Json.quote "violations" ++ ": ") := by
    decide +kernel
  have hbracket : "\n    ]" = "\n" ++ (margin 2 ++ "]") := by decide +kernel
  have hclose : "  \x7d" = margin 1 ++ "\x7d" := by decide +kernel
  delta entry
  rw [hobject, Json.renderAt_array, hentries, hopen, hfile, hviolations, hbracket, hclose]
  simp only [String.append_assoc]

/-- A JSON report has one entry for each document, in their order. -/
theorem Report.json_eq (reports : List FileReport) :
    Report.json reports =
      (if reports = [] then "[]"
        else "[\n" ++ ",\n".intercalate (reports.map FileReport.entry) ++ "\n]") ++ "\n" := by
  have hmargin : margin 0 = "" := by decide +kernel
  have hclose : "\n]" = "\n" ++ "]" := by decide +kernel
  rw [json, Json.render, Json.renderAt_array]
  simp only [Nat.zero_add, FileReport.margin_append_renderAt, hmargin, hclose, String.append_empty,
    String.append_assoc]

/-! ## §2 Text -/

theorem Violation.render_eq (violation : Violation) :
    violation.render =
      if violation.path = "" then violation.message
      else "[" ++ violation.path ++ "] " ++ violation.message := by
  simp only [render, String.isEmpty_iff]

/-- The violations of a document are numbered one after the other, each with its path in front if it
has one. -/
theorem FileReport.numbered_eq (number : Nat) (violations : List Violation) :
    numbered number violations = (violations.zipIdx number).map fun (violation, i) =>
      "  " ++ toString i ++ ". " ++
        (if violation.path = "" then violation.message
          else "[" ++ violation.path ++ "] " ++ violation.message) ++ "\n" := by
  induction violations generalizing number with
  | nil => rfl
  | cons violation rest ih =>
    rw [numbered, ih, List.zipIdx_cons, List.map_cons, Violation.render_eq]

end PanelLayout
