import PanelLayout.Node.Basic

/-!
# Constraints on attribute values

Some attributes have values of a fixed form, whatever the kind of their node.  The table
`Constraint.table` lists them in the order in which they are checked.
-/

namespace PanelLayout

/-- Which numbers an attribute takes. -/
inductive NumericType where
  | integer
  | number
  deriving DecidableEq, Repr

namespace NumericType

/-- Is the number of this type?  Every number is a `number`. -/
def accepts : NumericType → Number → Bool
  | integer, .int _ => true
  | integer, .float _ => false
  | number, _ => true

def name : NumericType → String
  | integer => "integer"
  | number => "number"

end NumericType

/-- What the value of an attribute must be. -/
inductive Constraint where
  /-- One of some words. -/
  | oneOf (words : List String)
  /-- A number from `min` on, up to `max` if that is given. -/
  | range (numeric : NumericType) (min : Binary64) (max : Option Binary64)
  /-- A truth value. -/
  | boolean
  /-- An integer from zero up to the width of the canvas. -/
  | canvasWidth
  /-- A font size that comes to at least `min` and at most `max` pixels. -/
  | fontSize (min max : Binary64)
  deriving DecidableEq, Repr

namespace Constraint

/-- The places that an anchor may name. -/
def anchors : List String :=
  ["top-left", "top-center", "top-right", "center-left", "center", "center-right", "bottom-left",
    "bottom-center", "bottom-right"]

/-- A range between two whole numbers. -/
def between (numeric : NumericType) (min max : Nat) : Constraint :=
  range numeric (.ofNat min) (some (.ofNat max))

/-- The constrained attributes, in the order in which they are checked. -/
def table : List (String × Constraint) :=
  [("anchor", oneOf anchors),
    ("alignment", oneOf ["center", "left", "right"]),
    ("vertical_alignment", oneOf ["center", "top", "bottom"]),
    ("direction", oneOf ["horizontal", "vertical"]),
    ("font_size", fontSize (.ofNat 8) (.ofNat 64)),
    ("max_width", canvasWidth),
    ("max_lines", between .integer 1 5),
    ("weight", range .number (.ofDecimal false 1 (-4)) (some (.ofNat 10))),
    ("thickness", between .integer 1 3),
    ("width", range .number .zero none),
    ("height", range .number .zero none),
    ("is_absolute", boolean)]

def of? (name : String) : Option Constraint := table.lookup name

end Constraint

end PanelLayout
