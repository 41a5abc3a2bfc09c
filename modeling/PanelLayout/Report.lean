import PanelLayout.Text.Json
import PanelLayout.Violation

/-!
# Reports

What a check of several documents tells the user: a JSON report of all documents, or a text
report, in which the valid documents and the invalid ones go to different streams.
-/

namespace PanelLayout

/-- A document and its violations. -/
structure FileReport where
  file : String
  violations : List Violation
  deriving DecidableEq

namespace Violation

/-- A violation in a JSON report. -/
def toJson (violation : Violation) : Json :=
  .object [("path", .string violation.path), ("kind", .string violation.problem.code),
    ("message", .string violation.message)]

end Violation

namespace FileReport

def isValid (report : FileReport) : Bool := report.violations.isEmpty

/-- A document in a JSON report. -/
def toJson (report : FileReport) : Json :=
  .object [("file", .string report.file),
    ("violations", .array (report.violations.map Violation.toJson))]

def validLine (report : FileReport) : String := "✓ " ++ report.file ++ " is valid\n"

/-- The numbered lines of violations, from `number` on. -/
def numbered (number : Nat) : List Violation → List String
  | [] => []
  | violation :: rest =>
    ("  " ++ toString number ++ ". " ++ violation.render ++ "\n") :: numbered (number + 1) rest

/-- What the text report says of an invalid document. -/
def invalidLines (report : FileReport) : String :=
  "✗ " ++ report.file ++ " has " ++ toString report.violations.length ++ " violation(s):\n" ++
    String.join (numbered 1 report.violations)

end FileReport

namespace Report

def json (reports : List FileReport) : String :=
  (Json.array (reports.map FileReport.toJson)).render ++ "\n"

/-- The part of the text report on valid documents. -/
def valid (reports : List FileReport) : String :=
  String.join ((reports.filter (·.isValid)).map FileReport.validLine)

/-- The part of the text report on invalid documents. -/
def invalid (reports : List FileReport) : String :=
  String.join ((reports.filter (!·.isValid)).map FileReport.invalidLines)

end Report

end PanelLayout
