import PanelLayout.Command.Check
import PanelLayout.Overrides.OfTree

/-!
# Running the command

The command as a function of its arguments and of what can be read from files.  Documents and rules
files are read as YAML by the reader of this library, which tells in its own words why it refuses a
text.
-/

namespace PanelLayout.Command

/-! ## §1 Reading YAML -/

instance : ToString DecodeError := ⟨DecodeError.message⟩

/-- The reader of this library. -/
def Reader.yaml : Reader where
  value text := (Yaml.Value.ofText? text).mapError (·.message)
  overrides text := (Overrides.ofText text).mapError toString

def loadOverrides (files : Files) (path : String) : Except (LoadError DecodeError) Overrides :=
  loadWith Overrides.ofText files path

/-! ## §2 Running -/

/-- What is told of the use of the command.  The words are left to the program that runs it. -/
structure Manual where
  usage : String := ""
  explain : UsageError → String := fun _ => ""

def versionLine : String := "layout-validate 0.1.0\n"

/-- What the arguments ask for, or what is wrong with them. -/
def run (files : Files) (arguments : List String) (manual : Manual := {}) : Outcome :=
  match parse arguments with
  | .error e => ⟨2, "", manual.explain e⟩
  | .ok .help => ⟨0, manual.usage, ""⟩
  | .ok .version => ⟨0, versionLine, ""⟩
  | .ok (.check request) => check .yaml files request

end PanelLayout.Command
