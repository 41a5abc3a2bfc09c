import PanelLayout.Numeric.Binary64

/-!
# Rule sets

The part of the layout rules that a project may adjust: the canvas, the structural limits, the
greatest lengths of texts, the named font sizes and the known icon modules.
-/

namespace PanelLayout

/-- The size of the panel in pixels. -/
structure Canvas where
  width : UInt32
  height : UInt32
  deriving DecidableEq, Repr

/-- The structural limits of a layout. -/
structure Limits where
  maxNodeDepth : Nat
  maxChildren : Nat
  maxExpressionDepth : Nat
  deriving DecidableEq, Repr

/-- The adjustable rules of a layout.  `maxLengths` and `fontSizes` name each field and each alias
once, in the order in which they are checked and listed. -/
structure RuleSet where
  canvas : Canvas
  limits : Limits
  maxLengths : List (String × Nat)
  fontSizes : List (String × Binary64)
  iconModules : List String
  deriving DecidableEq, Repr

namespace RuleSet

/-- The rules of a project that adjusts nothing. -/
def builtin : RuleSet where
  canvas := ⟨800, 480⟩
  limits := ⟨10, 20, 2⟩
  maxLengths := [("id", 32), ("content", 128), ("condition", 128), ("icon_id", 64)]
  fontSizes := [("Small", .ofNat 16), ("Medium", .ofNat 24), ("Large", .ofNat 40)]
  iconModules := ["digit_icon", "weather_icon", "system_icon"]

def maxLength? (rules : RuleSet) (field : String) : Option Nat := rules.maxLengths.lookup field

def fontSize? (rules : RuleSet) (name : String) : Option Binary64 := rules.fontSizes.lookup name

def isIconModule (rules : RuleSet) (name : String) : Bool := name ∈ rules.iconModules

end RuleSet

end PanelLayout
