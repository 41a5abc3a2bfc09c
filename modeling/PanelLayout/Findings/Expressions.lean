import PanelLayout.Expression.Braces
import PanelLayout.IconModule
import PanelLayout.Node.Basic
import PanelLayout.Rules.RuleSet
import PanelLayout.Text.Blank
import PanelLayout.Violation

/-!
# Findings on expressions

Three attributes hold expressions.  An expression must not be nested too deep, must not use
operators inside braces, and must refer to known icon modules where it names an icon; the content
of a text and the name of an icon must not be blank.
-/

namespace PanelLayout.Findings

/-- The attributes that hold expressions, in the order in which they are checked. -/
def expressionFields : List String := ["content", "icon_id", "condition"]

/-- The expressions that must not be blank. -/
def nonBlankFields : List String := ["content", "icon_id"]

def iconField : String := "icon_id"

/-- A required expression must not be blank. -/
def ofBlank (field raw : String) : List Problem :=
  if field ∈ nonBlankFields ∧ Text.isBlank raw then [.emptyRequiredExpression] else []

/-- An expression must not be nested too deep. -/
def ofExpressionDepth (rules : RuleSet) (raw : String) : List Problem :=
  let depth := Expression.nestingDepth raw
  let max := rules.limits.maxExpressionDepth
  if max < depth then [.expressionTooDeep depth max] else []

/-- The operators of one segment, each reported once. -/
def ofSegment (segment : String) : List Problem :=
  (Expression.forbiddenOperators.filter (· ∈ segment.toList)).map
    (.forbiddenOperatorInExpression · segment)

/-- The modules that an icon's name refers to must be known. -/
def ofModules (rules : RuleSet) (field raw : String) : List Problem :=
  if field = iconField then
    ((IconModule.references raw).filter (!rules.isIconModule ·)).map fun name =>
      .unknownIconModule name (", ".intercalate rules.iconModules)
  else []

def ofExpression (rules : RuleSet) (field : String) (value : AttrValue) : List Problem :=
  let raw := value.render
  ofBlank field raw ++ ofExpressionDepth rules raw ++
    (Expression.segments raw).flatMap ofSegment ++ ofModules rules field raw

def ofExpressions (rules : RuleSet) (node : Node) : List Finding :=
  expressionFields.flatMap fun field =>
    match node.get? field with
    | some value => (ofExpression rules field value).map (⟨.field field, ·⟩)
    | none => []

end PanelLayout.Findings
