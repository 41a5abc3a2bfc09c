import PanelLayout.Node.OfValue
import PanelLayout.Walk

/-!
# Layout documents

A layout document is a YAML text whose root is a mapping.  A text that is not one has a single
violation, which stands nowhere in particular.
-/

namespace PanelLayout.Document

def rootReason : String := "document root must be a mapping"

/-- The one violation of a text that is no layout document. -/
def unparsable (reason : String) : Violation := ⟨.nowhere, .unparsableDocument reason⟩

/-- The violations of a document that has been read as a YAML value, or could not be read for some
reason. -/
def validateValue (rules : RuleSet) : Except String Yaml.Value → List Violation
  | .error reason => [unparsable reason]
  | .ok value =>
    match Node.ofValue? value with
    | some root => root.validate rules
    | none => [unparsable rootReason]

def validate (rules : RuleSet) (text : String) : List Violation :=
  validateValue rules ((Yaml.Value.ofText? text).mapError (·.message))

end PanelLayout.Document
