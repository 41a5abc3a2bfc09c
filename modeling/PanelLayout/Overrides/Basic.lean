import PanelLayout.IconModule
import PanelLayout.NamedList
import PanelLayout.Rules.NameTable
import PanelLayout.Rules.RuleSet
import PanelLayout.Text.Blank

/-!
# Rule overrides

A project's adjustments to the rules.  `Overrides.apply` gives the adjusted rules, or the first
setting that is not acceptable: the canvas first, then the font sizes in ascending order of their
aliases, the icon modules, the limits, and the greatest lengths in ascending order of their
fields.
-/

namespace PanelLayout

/-! ## §1 What may be adjusted -/

/-- Adjusted structural limits; what is not given stays. -/
structure LimitOverrides where
  maxNodeDepth : Option Nat
  maxChildren : Option Nat
  maxExpressionDepth : Option Nat
  deriving DecidableEq, Repr

/-- Adjustments to the rules; what is not given stays. -/
structure Overrides where
  canvas : Option Canvas
  /-- Font sizes by alias; an alias that exists takes the new size. -/
  fontSizes : Option (NameTable Binary64)
  /-- The icon modules that replace the known ones. -/
  iconModules : Option (List String)
  limits : Option LimitOverrides
  /-- Greatest lengths by field. -/
  maxLengths : Option (NameTable Nat)

def Overrides.none : Overrides := ⟨.none, .none, .none, .none, .none⟩

/-! ## §2 What is not acceptable -/

/-- Why a setting is not acceptable. -/
inductive OverrideError where
  | canvasNotPositive
  | blankAlias
  | fontSizeNotPositive (name : String)
  | noIconModules
  | badIconModule (name : String)
  | nodeDepthNotPositive
  | childrenNotPositive
  | unlimitedField (field : String)
  | lengthNotPositive (field : String)
  deriving DecidableEq, Repr

namespace OverrideError

/-- The setting at fault. -/
def key : OverrideError → String
  | canvasNotPositive => "canvas"
  | blankAlias => "font_sizes"
  | fontSizeNotPositive name => "font_sizes." ++ name
  | noIconModules | badIconModule _ => "icon_modules"
  | nodeDepthNotPositive => "limits.max_node_depth"
  | childrenNotPositive => "limits.max_children"
  | unlimitedField field | lengthNotPositive field => "max_lengths." ++ field

/-- What is wrong with it. -/
def reason : OverrideError → String
  | canvasNotPositive => "width and height must be positive"
  | blankAlias => "alias names must be non-empty"
  | fontSizeNotPositive _ => "size must be a positive number"
  | noIconModules => "must list at least one module"
  | badIconModule name => "'" ++ name ++ "' is not a valid module name (letters and '_' only)"
  | nodeDepthNotPositive | childrenNotPositive | lengthNotPositive _ => "must be greater than 0"
  | unlimitedField _ => "not a length-limited field"

def message (e : OverrideError) : String :=
  "Invalid rule override '" ++ e.key ++ "': " ++ e.reason

end OverrideError

/-! ## §3 Applying -/

namespace Overrides

def isModuleName (name : String) : Bool := IconModule.isName name.toList

/-- Is this a size that a font may have? -/
def isFontSize (px : Binary64) : Bool := px.isFinite && Binary64.zero.lt px

/-- Adjusts the canvas; both sides must be positive. -/
def applyCanvas (rules : RuleSet) : Option Canvas → Except OverrideError RuleSet
  | .none => .ok rules
  | some canvas =>
    if canvas.width = 0 ∨ canvas.height = 0 then .error .canvasNotPositive
    else .ok { rules with canvas := canvas }

/-- Adjusts font sizes one after the other; a new alias goes to the end. -/
def applyFontSizes (sizes : List (String × Binary64)) :
    List (String × Binary64) → Except OverrideError (List (String × Binary64))
  | [] => .ok sizes
  | (name, px) :: rest =>
    if Text.isBlank name then .error .blankAlias
    else if !isFontSize px then .error (.fontSizeNotPositive name)
    else applyFontSizes (NamedList.set name px sizes) rest

/-- Replaces the icon modules; there must be one, and all must have proper names. -/
def applyIconModules (rules : RuleSet) : Option (List String) → Except OverrideError RuleSet
  | .none => .ok rules
  | some modules =>
    if modules.isEmpty then .error .noIconModules
    else
      match modules.find? (!isModuleName ·) with
      | some bad => .error (.badIconModule bad)
      | .none => .ok { rules with iconModules := modules }

/-- A limit that must be positive if it is given. -/
def positiveOr (old : Nat) (e : OverrideError) : Option Nat → Except OverrideError Nat
  | .none => .ok old
  | some n => if n = 0 then .error e else .ok n

/-- Adjusts the limits; expressions alone may be forbidden to nest at all. -/
def applyLimits (rules : RuleSet) : Option LimitOverrides → Except OverrideError RuleSet
  | .none => .ok rules
  | some limits => do
    let depth ← positiveOr rules.limits.maxNodeDepth .nodeDepthNotPositive limits.maxNodeDepth
    let children ← positiveOr rules.limits.maxChildren .childrenNotPositive limits.maxChildren
    -- Zero is a good limit here: then no braces are allowed at all.
    let expression := limits.maxExpressionDepth.getD rules.limits.maxExpressionDepth
    .ok { rules with limits := ⟨depth, children, expression⟩ }

/-- Adjusts greatest lengths one after the other; only a field that is limited already has one. -/
def applyMaxLengths (lengths : List (String × Nat)) :
    List (String × Nat) → Except OverrideError (List (String × Nat))
  | [] => .ok lengths
  | (field, max) :: rest =>
    if (lengths.lookup field).isNone then .error (.unlimitedField field)
    else if max = 0 then .error (.lengthNotPositive field)
    else applyMaxLengths (NamedList.set field max lengths) rest

/-- The entries of a table that may be absent. -/
def entriesOf {α : Type} : Option (NameTable α) → List (String × α)
  | .none => []
  | some table => table.entries

/-- The adjusted rules, or the first setting that is not acceptable. -/
def apply (overrides : Overrides) (base : RuleSet) : Except OverrideError RuleSet := do
  let rules ← applyCanvas base overrides.canvas
  let sizes ← applyFontSizes rules.fontSizes (entriesOf overrides.fontSizes)
  let rules ← applyIconModules { rules with fontSizes := sizes } overrides.iconModules
  let rules ← applyLimits rules overrides.limits
  let lengths ← applyMaxLengths rules.maxLengths (entriesOf overrides.maxLengths)
  .ok { rules with maxLengths := lengths }

end Overrides

end PanelLayout
