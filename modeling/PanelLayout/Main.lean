import PanelLayout.Command.Run

/-!
# The command `layout-validate`

Reads the files that the arguments name and hands them to `Command.run`; all decisions are made
there.
-/

namespace PanelLayout.Command

/-- The code and the description that the system gives an error, if it does. -/
def systemError : IO.Error → Option (UInt32 × String)
  | .alreadyExists _ code details | .noFileOrDirectory _ code details
  | .invalidArgument _ code details | .permissionDenied _ code details
  | .resourceExhausted _ code details | .inappropriateType _ code details
  | .noSuchThing _ code details => some (code, details)
  | .otherError code details | .resourceBusy code details | .resourceVanished code details
  | .unsupportedOperation code details | .hardwareFault code details
  | .unsatisfiedConstraints code details | .illegalOperation code details
  | .protocolError code details | .timeExpired code details => some (code, details)
  | .interrupted _ code details => some (code, details)
  | .unexpectedEof | .userError _ => none

/-- Why the system could not read a file. -/
def ReadError.ofSystem (e : IO.Error) : ReadError :=
  match systemError e with
  | some (2, _) => .notFound
  | some (21, _) => .isDirectory
  | some (code, details) => .other (details ++ " (os error " ++ toString code ++ ")")
  | none => .other (toString e)

def readText (path : String) : IO (Except ReadError String) := do
  match ← (IO.FS.readBinFile path).toBaseIO with
  | .error e => return .error (.ofSystem e)
  | .ok bytes =>
    match String.fromUTF8? bytes with
    | some text => return .ok text
    | none => return .error .notText

def Request.paths : Request → List String
  | .check request => request.rules.toList ++ request.files
  | _ => []

/-- Reads the files that the arguments name. -/
def readFiles (arguments : List String) : IO Files := do
  let paths := match parse arguments with
    | .ok request => request.paths
    | .error _ => []
  let texts ← paths.mapM fun path => return (path, ← readText path)
  return fun path => (texts.lookup path).getD (.error .notFound)

def UsageError.message : UsageError → String
  | noFiles => "the following required arguments were not provided: <FILE>..."
  | emptyFile => "a file name must not be empty"
  | unknownOption argument => "unexpected argument '" ++ argument ++ "' found"
  | missingValue option => "a value is required for '" ++ option ++ "'"
  | unexpectedValue option => "no value may be given to '" ++ option ++ "'"
  | repeated option => "the argument '" ++ option ++ "' cannot be used multiple times"

def usage : String :=
  "Usage: layout-validate [OPTIONS] <FILE>...\n\n" ++
  "Validates e-paper layout documents against the layout rules. Exits with 0 when every\n" ++
  "file is valid, 1 when a file has violations, and 2 when a file or the rule overrides\n" ++
  "cannot be read.\n\n" ++
  "Options:\n" ++
  "      --rules <FILE>  YAML file with rule overrides\n" ++
  "      --json          Print a JSON report instead of text\n" ++
  "  -h, --help          Print help\n" ++
  "  -V, --version       Print version\n"

/-- The words of this program. -/
def manual : Manual where
  usage := usage
  explain e := "error: " ++ e.message ++ "\n\n" ++ usage

end PanelLayout.Command

/-- Runs the command with the given arguments. -/
def main (arguments : List String) : IO UInt32 := do
  let files ← PanelLayout.Command.readFiles arguments
  let outcome := PanelLayout.Command.run files arguments PanelLayout.Command.manual
  (← IO.getStdout).putStr outcome.stdout
  (← IO.getStderr).putStr outcome.stderr
  return .ofNat outcome.exit
