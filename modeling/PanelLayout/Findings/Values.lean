import PanelLayout.Rules.Constraint
import PanelLayout.Rules.FontSize
import PanelLayout.Rules.Vocabulary
import PanelLayout.Violation

/-!
# Findings on attribute values

Coordinates, then the constrained attributes in the order of the table, then whether the node may
be placed absolutely at all.  All comparisons are those of doubles, so a value that is `nan` is
never in range.
-/

namespace PanelLayout.Findings

/-! ## §1 Coordinates -/

/-- The components of a coordinate with their axes; components beyond the second have none. -/
def withAxes (items : List AttrValue) : List (AttrValue × Axis) := items.zip [.x, .y]

/-- Every component must be a number from zero on. -/
def ofComponent (name : String) (item : AttrValue) (axis : Axis) : List Finding :=
  match item.number? with
  | none => [⟨.component name axis, .wrongType "number" item.typeName⟩]
  | some n =>
    if Binary64.zero.le n.toBinary64 then []
    else [⟨.component name axis, .outOfRange n.render ">= 0"⟩]

def canvasSide (canvas : Canvas) : Axis → UInt32
  | .x => canvas.width
  | .y => canvas.height

/-- Is the number between zero and the bound? -/
def isWithin (bound : UInt32) (n : Number) : Bool :=
  Binary64.zero.le n.toBinary64 && n.toBinary64.le (.ofNat bound.toNat)

/-- A number of an absolute coordinate must lie on the canvas. -/
def ofAbsoluteComponent (canvas : Canvas) (name : String) (item : AttrValue) (axis : Axis) :
    List Finding :=
  match item.number? with
  | none => []
  | some n =>
    let side := canvasSide canvas axis
    if isWithin side n then []
    else [⟨.component name axis, .coordinateOutOfCanvas axis n.render 0 side.toNat⟩]

/-- A coordinate must be a list of two numbers from zero on, and on the canvas if the node is
placed absolutely. -/
def ofCoordinate (rules : RuleSet) (absolute : Bool) (name : String) :
    AttrValue → List Finding
  | .list items =>
    let shape : List Finding :=
      if items.length = 2 then []
      else
        [⟨.field name,
          .wrongType "2-element [x, y] array" (toString items.length ++ "-element array")⟩]
    -- Components are judged even when there are too few or too many of them.
    let signs := (withAxes items).flatMap fun (item, axis) => ofComponent name item axis
    let bounds :=
      if absolute && items.length = 2 then
        (withAxes items).flatMap fun (item, axis) =>
          ofAbsoluteComponent rules.canvas name item axis
      else []
    shape ++ signs ++ bounds
  | value => [⟨.field name, .wrongType "[x, y] array" value.typeName⟩]

/-! ## §2 Constraints -/

def ofWord (words : List String) (value : AttrValue) : List Problem :=
  if value.text?.any (· ∈ words) then []
  else [.invalidEnumValue value.render (", ".intercalate words)]

def renderRange (min : Binary64) : Option Binary64 → String
  | some max => min.render ++ " to " ++ max.render
  | none => ">= " ++ min.render

/-- The value must be a number of the type and in the range. -/
def ofRange (numeric : NumericType) (min : Binary64) (max : Option Binary64) (value : AttrValue) :
    List Problem :=
  match value.number?.filter numeric.accepts with
  | none => [.wrongType numeric.name value.typeName]
  | some n =>
    let x := n.toBinary64
    if min.le x && max.all x.le then [] else [.outOfRange n.render (renderRange min max)]

def ofBoolean : AttrValue → List Problem
  | .bool _ => []
  | value => [.wrongType "boolean" value.typeName]

/-- The value must give a font size in the range. -/
def ofFontSize (rules : RuleSet) (min max : Binary64) (value : AttrValue) : List Problem :=
  match FontSize.resolve? rules value with
  | none =>
    [.unparsableFontSize value.render (", ".intercalate (NamedList.names rules.fontSizes))]
  | some px =>
    if px.lt min || max.lt px || px.isNan then [.fontSizeOutOfRange px.render min max] else []

/-- The problems of a value under a constraint. -/
def ofConstraint (rules : RuleSet) (constraint : Constraint) (value : AttrValue) :
    List Problem :=
  match constraint with
  | .oneOf words => ofWord words value
  | .range numeric min max => ofRange numeric min max value
  | .canvasWidth => ofRange .integer .zero (some (.ofNat rules.canvas.width.toNat)) value
  | .boolean => ofBoolean value
  | .fontSize min max => ofFontSize rules min max value

/-! ## §3 All values of a node -/

/-- The coordinates of a node, by its kind. -/
def ofCoordinates (rules : RuleSet) (tag : KindTag) (node : Node) : List Finding :=
  let names := match tag.kind? with
    | some kind => kind.coordinates
    | none => []
  names.flatMap fun name =>
    match node.get? name with
    | some value => ofCoordinate rules node.isAbsolute name value
    | none => []

def ofConstraints (rules : RuleSet) (node : Node) : List Finding :=
  Constraint.table.flatMap fun (name, constraint) =>
    match node.get? name with
    | some value => (ofConstraint rules constraint value).map (⟨.field name, ·⟩)
    | none => []

/-- Only some kinds may be placed absolutely.  A node without `type` is not judged. -/
def ofPlacement (tag : KindTag) (node : Node) : List Finding :=
  let allowed := tag = .missing || tag.kind?.any (·.allowsAbsolute)
  if node.contains "is_absolute" && !allowed then
    [⟨.field "is_absolute",
      .absoluteLayoutNotAllowed (NodeKind.listNames NodeKind.absoluteKinds)⟩]
  else []

/-- The values of a node's attributes. -/
def ofValues (rules : RuleSet) (tag : KindTag) (node : Node) : List Finding :=
  ofCoordinates rules tag node ++ ofConstraints rules node ++ ofPlacement tag node

end PanelLayout.Findings
