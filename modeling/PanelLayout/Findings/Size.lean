import PanelLayout.Node.Basic
import PanelLayout.Rules.RuleSet
import PanelLayout.Violation

/-!
# Findings on the size of a node

How long the texts of a node are, how deep the node stands, and how many children it has.
-/

namespace PanelLayout.Findings

/-- The finding on one length-limited field. -/
def ofLength (node : Node) (field : String) (max : Nat) : List Finding :=
  match node.get? field with
  | none => []
  | some value =>
    let length := value.render.length
    if max < length then [⟨.field field, .fieldTooLong length max⟩] else []

/-- No field's text may be longer than its limit, counted in characters. -/
def ofLengths (rules : RuleSet) (node : Node) : List Finding :=
  rules.maxLengths.flatMap fun (field, max) => ofLength node field max

/-- A node must not stand too deep. -/
def ofDepth (rules : RuleSet) (depth : Nat) : List Finding :=
  let max := rules.limits.maxNodeDepth
  if max < depth then [⟨.node, .nestingTooDeep depth max⟩] else []

/-- `children` must be a list of entries, or null, and must not be too many. -/
def ofChildren (rules : RuleSet) (node : Node) : List Finding :=
  match node.get? "children" with
  | none | some .null => []
  | some (.children entries) =>
    let max := rules.limits.maxChildren
    if max < entries.length then [⟨.field "children", .tooManyChildren entries.length max⟩] else []
  | some value => [⟨.field "children", .wrongType "array of child nodes" value.typeName⟩]

/-- The limits on depth and on children. -/
def ofNesting (rules : RuleSet) (depth : Nat) (node : Node) : List Finding :=
  ofDepth rules depth ++ ofChildren rules node

end PanelLayout.Findings
