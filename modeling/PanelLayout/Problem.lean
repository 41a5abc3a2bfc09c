import PanelLayout.Numeric.Shortest

/-!
# Problems of a layout

Everything that can be wrong with a layout document, with what the message tells about it.  Each
kind of problem has a code that does not change with its wording.
-/

namespace PanelLayout

/-- One of the two coordinate axes. -/
inductive Axis where
  | x
  | y
  deriving DecidableEq, Repr

def Axis.name : Axis → String
  | x => "x"
  | y => "y"

/-- Something that is wrong with a layout document. -/
inductive Problem where
  | unparsableDocument (reason : String)
  | unknownNodeKind (found expected : String)
  | missingRequiredAttribute (name kind : String)
  | forbiddenAttributePresent (name kind : String)
  | fieldTooLong (length max : Nat)
  | wrongType (expected found : String)
  | outOfRange (value range : String)
  | invalidEnumValue (value expected : String)
  | unparsableFontSize (value aliases : String)
  | fontSizeOutOfRange (value : String) (min max : Binary64)
  | absoluteLayoutNotAllowed (allowed : String)
  | coordinateOutOfCanvas (axis : Axis) (value : String) (min max : Nat)
  | invalidWeightUsage
  | expressionTooDeep (depth max : Nat)
  | forbiddenOperatorInExpression (operator : Char) (segment : String)
  | unknownIconModule (name allowed : String)
  | emptyRequiredExpression
  | nestingTooDeep (depth max : Nat)
  | tooManyChildren (count max : Nat)
  | malformedChildEntry
  deriving DecidableEq, Repr

namespace Problem

/-- The stable code of a problem. -/
def code : Problem → String
  | unparsableDocument .. => "UnparsableDocument"
  | unknownNodeKind .. => "UnknownNodeKind"
  | missingRequiredAttribute .. => "MissingRequiredAttribute"
  | forbiddenAttributePresent .. => "ForbiddenAttributePresent"
  | fieldTooLong .. => "FieldTooLong"
  | wrongType .. => "WrongType"
  | outOfRange .. => "OutOfRange"
  | invalidEnumValue .. => "InvalidEnumValue"
  | unparsableFontSize .. => "UnparsableFontSize"
  | fontSizeOutOfRange .. => "FontSizeOutOfRange"
  | absoluteLayoutNotAllowed .. => "AbsoluteLayoutNotAllowed"
  | coordinateOutOfCanvas .. => "CoordinateOutOfCanvas"
  | invalidWeightUsage => "InvalidWeightUsage"
  | expressionTooDeep .. => "ExpressionTooDeep"
  | forbiddenOperatorInExpression .. => "ForbiddenOperatorInExpression"
  | unknownIconModule .. => "UnknownIconModule"
  | emptyRequiredExpression => "EmptyRequiredExpression"
  | nestingTooDeep .. => "NestingTooDeep"
  | tooManyChildren .. => "TooManyChildren"
  | malformedChildEntry => "MalformedChildEntry"

def message : Problem → String
  | unparsableDocument reason => "YAML syntax error: " ++ reason
  | unknownNodeKind found expected =>
    "Unknown node type '" ++ found ++ "'. Expected one of: " ++ expected
  | missingRequiredAttribute name kind =>
    "Missing required attribute '" ++ name ++ "' for " ++ kind ++ " node"
  | forbiddenAttributePresent name kind =>
    "Attribute '" ++ name ++ "' is not allowed on " ++ kind ++ " node"
  | fieldTooLong length max =>
    "Field is " ++ toString length ++ " characters long, maximum is " ++ toString max
  | wrongType expected found => "Invalid type: expected " ++ expected ++ ", found " ++ found
  | outOfRange value range => "Value " ++ value ++ " out of range. Expected " ++ range
  | invalidEnumValue value expected =>
    "Invalid value '" ++ value ++ "'. Expected one of: " ++ expected
  | unparsableFontSize value aliases =>
    "Unsupported font size '" ++ value ++ "': use a number, a 'px' value or one of: " ++ aliases
  | fontSizeOutOfRange value min max =>
    "Font size " ++ value ++ "px out of range. Expected " ++ min.render ++ "px to " ++
      max.render ++ "px"
  | absoluteLayoutNotAllowed allowed => "Absolute layout is only allowed on: " ++ allowed
  | coordinateOutOfCanvas axis value min max =>
    "Absolute coordinate " ++ axis.name ++ "=" ++ value ++ " outside the canvas. Expected " ++
      toString min ++ " <= " ++ axis.name ++ " <= " ++ toString max
  | invalidWeightUsage => "'weight' requires a parent container with 'direction' set"
  | expressionTooDeep depth max =>
    "Expression nesting depth " ++ toString depth ++ " exceeds maximum of " ++ toString max
  | forbiddenOperatorInExpression operator segment =>
    "Operator '" ++ operator.toString ++ "' is not allowed inside braces: " ++ segment
  | unknownIconModule name allowed =>
    "Unknown icon module '" ++ name ++ "'. Expected one of: " ++ allowed
  | emptyRequiredExpression => "Expression must not be empty"
  | nestingTooDeep depth max =>
    "Node nesting depth " ++ toString depth ++ " exceeds maximum of " ++ toString max
  | tooManyChildren count max =>
    "Container has " ++ toString count ++ " children, maximum is " ++ toString max
  | malformedChildEntry => "Child entry must be a mapping with a 'node' mapping"

end Problem

end PanelLayout
