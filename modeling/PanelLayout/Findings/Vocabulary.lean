import PanelLayout.Node.Basic
import PanelLayout.Rules.Vocabulary
import PanelLayout.Violation

/-!
# Findings on a node's vocabulary

Whether the kind of a node is known, whether it has the attributes that its kind requires and
none that its kind forbids, and whether its `weight` has a parent to weigh it.

A node without `type` is only told that; a node of an unknown kind has no vocabulary to keep.
-/

namespace PanelLayout.Findings

/-- The kind must be known. -/
def ofKind : KindTag → List Finding
  | .unknown found =>
    [⟨.node, .unknownNodeKind found (NodeKind.listNames NodeKind.all)⟩]
  | _ => []

/-- The required attributes that a node lacks, in the order of the table. -/
def ofMissing (kind : NodeKind) (node : Node) : List Finding :=
  (kind.required.filter (!node.contains ·)).map fun name =>
    ⟨.node, .missingRequiredAttribute name kind.name⟩

/-- The forbidden attributes that a node has, in the order of the node. -/
def ofForbidden (kind : NodeKind) (node : Node) : List Finding :=
  ((NamedList.names node.attributes).filter (· ∈ kind.forbidden)).map fun name =>
    ⟨.node, .forbiddenAttributePresent name kind.name⟩

/-- Required attributes must be there, and forbidden ones must not. -/
def ofVocabulary (tag : KindTag) (node : Node) : List Finding :=
  match tag with
  | .missing => [⟨.node, .missingRequiredAttribute "type" "untyped"⟩]
  | .known kind => ofMissing kind node ++ ofForbidden kind node
  | .unknown _ => []

/-- Does a node distribute its space by weight?  Containers with a direction do. -/
def distributesByWeight (node : Node) : Bool :=
  node.kindTag = .known .container && node.contains "direction"

/-- A `weight` needs a parent that distributes its space by weight. -/
def ofWeight (parent : Option Node) (node : Node) : List Finding :=
  if node.contains "weight" && !parent.any distributesByWeight then
    [⟨.field "weight", .invalidWeightUsage⟩]
  else []

end PanelLayout.Findings
