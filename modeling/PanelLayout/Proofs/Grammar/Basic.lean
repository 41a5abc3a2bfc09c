import PanelLayout.Proofs.Expression.Depth
import PanelLayout.Proofs.Expression.References
import PanelLayout.Proofs.Numeric.Decimal
import PanelLayout.Rules.Constraint
import PanelLayout.Rules.Vocabulary

/-!
# The grammar of layouts

What a layout must be, said without the checks that look for faults in it.  A node is well formed
as a node of some kind, in the place where it stands: below its parent, at its depth.  A layout is
well formed if every node of it is.

Nothing is computed here as the checks compute it.

* Numbers are compared with their bounds as rational numbers (`Number.InRange`), so `nan` is in no
  range.
* A size in pixels is a decimal literal, and it counts as the double nearest to the number that is
  spelled (`FontSize.Fits`).
* An expression is judged by the stretches of its text, its outermost divisions and the places where
  it refers to a module (`Expression.WellFormed`).

What it shares with the checks are the tables of the rules and the text that a value renders to.
-/

namespace PanelLayout

/-! ## §1 Texts and numbers -/

/-- The code points with the Unicode property `White_Space`. -/
def Text.whiteSpace : List Nat :=
  [0x09, 0x0A, 0x0B, 0x0C, 0x0D, 0x20, 0x85, 0xA0, 0x1680, 0x2000, 0x2001, 0x2002, 0x2003, 0x2004,
    0x2005, 0x2006, 0x2007, 0x2008, 0x2009, 0x200A, 0x2028, 0x2029, 0x202F, 0x205F, 0x3000]

def Text.IsWhite (c : Char) : Prop := c.toNat ∈ whiteSpace

/-- A value that gives a font size between `min` and `max`. -/
inductive FontSize.Fits (rules : RuleSet) (min max : ℚ) : AttrValue → Prop where
  | number {n : Number} (hrange : n.InRange min (some max)) : Fits rules min max (.number n)
  /-- A decimal literal before `px`, blanks around it aside. -/
  | pixels {text : String} {before literal after : List Char} {q : ℚ} {units : ℤ}
      (htext : text.toList = before ++ literal ++ after ++ ['p', 'x'])
      (hbefore : ∀ c ∈ before, Text.IsWhite c) (hafter : ∀ c ∈ after, Text.IsWhite c)
      (hspells : Literal.Spells literal q) (hnearest : Binary64.IsNearest q units)
      (hmin : min ≤ units * Binary64.unit) (hmax : units * Binary64.unit ≤ max) :
      Fits rules min max (.text text)
  /-- A name of the rule set, which must not end in `px`. -/
  | named {text : String} {x : Binary64} (htext : ∀ front, text.toList ≠ front ++ ['p', 'x'])
      (hnamed : rules.fontSizes.lookup text = some x)
      (hrange : (Number.float x).InRange min (some max)) : Fits rules min max (.text text)

/-! ## §2 Values -/

/-- A value that a constraint admits. -/
def Constraint.Admits (rules : RuleSet) : Constraint → AttrValue → Prop
  | .oneOf words, value => ∃ word ∈ words, value = .text word
  | .range numeric min max, value =>
    ∃ n, value = .number n ∧ (numeric = .integer → ∃ whole, n = .int whole) ∧
      n.InRange min.toRat (max.map Binary64.toRat)
  | .boolean, value => ∃ b, value = .bool b
  | .canvasWidth, value =>
    ∃ n : ℤ, value = .number (.int n) ∧ 0 ≤ n ∧ n ≤ rules.canvas.width.toNat
  | .fontSize min max, value => FontSize.Fits rules min.toRat max.toRat value

/-- A number that may be a component of a coordinate: one from zero on, and on the canvas if the
node is placed absolutely. -/
structure Number.IsComponent (absolute : Prop) (side : UInt32) (n : Number) : Prop where
  sign : n.AtLeast 0
  bound : absolute → n.AtMost side.toNat

/-- A coordinate: a list of two numbers, which lie on the canvas if the node is placed
absolutely. -/
def AttrValue.IsCoordinate (rules : RuleSet) (absolute : Prop) (value : AttrValue) : Prop :=
  ∃ x y : Number, value = .list [.number x, .number y] ∧
    x.IsComponent absolute rules.canvas.width ∧ y.IsComponent absolute rules.canvas.height

/-- The text of an expression field that keeps all rules on expressions. -/
structure Expression.WellFormed (rules : RuleSet) (field raw : String) : Prop where
  notBlank : field = "content" ∨ field = "icon_id" → ∃ c ∈ raw.toList, ¬ Text.IsWhite c
  /-- No stretch of the text opens too many braces, escapes aside. -/
  depth : ∀ stretch, stretch <:+: (withoutEscapes raw.toList).map braceValue →
    stretch.sum ≤ rules.limits.maxExpressionDepth
  /-- No operator stands inside outermost braces. -/
  operators : ∀ division : Division, division.text = raw.toList → division.IsOutermost →
    ∀ part ∈ division.parts, ∀ operator ∈ ['+', '-', '*', '/', '%', '?'], operator ∉ part.inside
  modules : field = "icon_id" → ∀ place name, IconModule.RefersAt none raw.toList place name →
    name ∈ rules.iconModules

/-! ## §3 Nodes -/

namespace Node

/-- The node is placed absolutely. -/
def SaysAbsolute (node : Node) : Prop := node.get? "is_absolute" = some (.bool true)

/-- The node distributes the space of its children by their weights: it is a container with a
direction. -/
structure Directs (node : Node) : Prop where
  container : node.get? "type" = some (.text NodeKind.container.name)
  direction : node.contains "direction"

/-- A value that `children` may have: null, or a list of not too many entries of which none is
malformed. -/
def ChildrenWellFormed (rules : RuleSet) (value : AttrValue) : Prop :=
  value = .null ∨ ∃ entries, value = .children entries ∧
    entries.length ≤ rules.limits.maxChildren ∧ Child.malformed ∉ entries

/-- A node that is well formed as a node of a kind, below its parent and at its depth. -/
structure WellFormedAs (rules : RuleSet) (parent : Option Node) (depth : Nat) (kind : NodeKind)
    (node : Node) : Prop where
  /-- `type` is the name of the kind. -/
  type : node.get? "type" = some (.text kind.name)
  required : ∀ name ∈ kind.required, node.contains name
  forbidden : ∀ name ∈ kind.forbidden, ¬ node.contains name
  /-- No length-limited field renders to more characters than its limit. -/
  lengths : ∀ field max, (field, max) ∈ rules.maxLengths →
    ∀ value, node.get? field = some value → value.render.length ≤ max
  /-- A line has two ends, and any other node a position. -/
  coordinates : ∀ name ∈ if kind = .line then ["start", "end"] else ["position"],
    ∀ value, node.get? name = some value → value.IsCoordinate rules node.SaysAbsolute
  constraints : ∀ name constraint, Constraint.of? name = some constraint →
    ∀ value, node.get? name = some value → constraint.Admits rules value
  /-- A container cannot say how it is placed. -/
  placement : node.contains "is_absolute" → kind ≠ .container
  /-- A weight needs a parent that distributes by weight. -/
  weight : node.contains "weight" → ∃ above, parent = some above ∧ above.Directs
  expressions : ∀ field ∈ ["content", "icon_id", "condition"],
    ∀ value, node.get? field = some value → Expression.WellFormed rules field value.render
  depth : depth ≤ rules.limits.maxNodeDepth
  children : ∀ value, node.get? "children" = some value → ChildrenWellFormed rules value

/-- A node that is well formed as a node of some kind. -/
def WellFormed (rules : RuleSet) (parent : Option Node) (depth : Nat) (node : Node) : Prop :=
  ∃ kind, node.WellFormedAs rules parent depth kind

end Node

end PanelLayout
