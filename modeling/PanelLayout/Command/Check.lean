import PanelLayout.Command.Arguments
import PanelLayout.Document
import PanelLayout.Overrides.Basic
import PanelLayout.Report

/-!
# Checking documents

A check as a function of what can be read from files, and of a reader that makes YAML values and
overrides of their texts.  Either everything can be read and the report covers every document, or
nothing is reported but the first failure, the rules file coming before the documents.

The exit code is `0` when every document is valid, `1` when one is not, and `2` on a failure.
-/

namespace PanelLayout.Command

/-! ## §1 Files and texts -/

/-- Why a file cannot be read. -/
inductive ReadError where
  | notFound
  | isDirectory
  | notText
  | other (description : String)
  deriving DecidableEq, Repr

/-- The system's description. -/
def ReadError.message : ReadError → String
  | notFound => "No such file or directory (os error 2)"
  | isDirectory => "Is a directory (os error 21)"
  | notText => "stream did not contain valid UTF-8"
  | other description => description

/-- What can be read from the file of a name. -/
abbrev Files := String → Except ReadError String

/-- What makes values of texts.  A text that it refuses is refused for a reason, which is told. -/
structure Reader where
  /-- The YAML value of a layout document. -/
  value : String → Except String Yaml.Value
  /-- The overrides of a rules file. -/
  overrides : String → Except String Overrides

/-! ## §2 Failures -/

/-- Why overrides cannot be loaded from a file; a text that holds none is refused for a cause of
type `ε`. -/
inductive LoadError (ε : Type) where
  | unreadable (path : String) (cause : ReadError)
  | undecodable (cause : ε)
  deriving Repr

namespace LoadError

variable {ε : Type} [ToString ε]

def message : LoadError ε → String
  | unreadable path cause => "Failed to read '" ++ path ++ "': " ++ cause.message
  | undecodable cause => "YAML error: " ++ toString cause

/-- What is told of the cause alone. -/
def source : LoadError ε → String
  | unreadable _ cause => cause.message
  | undecodable cause => toString cause

end LoadError

/-- Loads overrides from a file. -/
def loadWith {ε : Type} (decode : String → Except ε Overrides) (files : Files) (path : String) :
    Except (LoadError ε) Overrides :=
  match files path with
  | .error cause => .error (.unreadable path cause)
  | .ok text => (decode text).mapError .undecodable

/-- Why a check cannot be made. -/
inductive Failure where
  | rulesNotLoaded (path : String) (cause : LoadError String)
  | rulesRefused (cause : OverrideError)
  | documentUnreadable (path : String) (cause : ReadError)
  deriving Repr

/-- The line that reports a failure.  A failure is told together with its causes, from the last one
to the first, even where the one repeats the other. -/
def Failure.line : Failure → String
  | rulesNotLoaded path cause =>
    "error: failed to load rule overrides from " ++ path ++ ": " ++ cause.message ++ ": " ++
      cause.source ++ "\n"
  | rulesRefused cause => "error: " ++ cause.message ++ "\n"
  | documentUnreadable path cause =>
    "error: failed to read " ++ path ++ ": " ++ cause.message ++ "\n"

/-! ## §3 Checking -/

/-- The rules of a check: the built-in ones, with the overrides of the rules file if there is
one. -/
def loadRules (reader : Reader) (files : Files) : Option String → Except Failure RuleSet
  | none => .ok .builtin
  | some path =>
    match loadWith reader.overrides files path with
    | .error cause => .error (.rulesNotLoaded path cause)
    | .ok overrides => (overrides.apply .builtin).mapError .rulesRefused

def checkFile (reader : Reader) (files : Files) (rules : RuleSet) (path : String) :
    Except Failure FileReport :=
  match files path with
  | .error cause => .error (.documentUnreadable path cause)
  | .ok text => .ok ⟨path, Document.validateValue rules (reader.value text)⟩

/-- The reports on all documents of a check, in order. -/
def checkFiles (reader : Reader) (files : Files) (request : Check) :
    Except Failure (List FileReport) := do
  let rules ← loadRules reader files request.rules
  request.files.mapM (checkFile reader files rules)

/-- What the command leaves behind. -/
structure Outcome where
  exit : Nat
  stdout : String
  stderr : String
  deriving DecidableEq, Repr

/-- The exit code of a check that could be made. -/
def exitCode (reports : List FileReport) : Nat := if reports.all (·.isValid) then 0 else 1

/-- Makes a check. -/
def check (reader : Reader) (files : Files) (request : Check) : Outcome :=
  match checkFiles reader files request with
  | .error failure => ⟨2, "", failure.line⟩
  | .ok reports =>
    if request.json then ⟨exitCode reports, Report.json reports, ""⟩
    else ⟨exitCode reports, Report.valid reports, Report.invalid reports⟩

end PanelLayout.Command
