import PanelLayout.Findings.Expressions
import PanelLayout.Findings.Size
import PanelLayout.Findings.Values
import PanelLayout.Findings.Vocabulary

/-!
# The walk over a layout tree

Every node of a layout is checked by itself, knowing of its surroundings only its parent and its
depth.  The walk visits the nodes in document order, a node before its children, and gathers the
findings at the addresses of their nodes.
-/

namespace PanelLayout

/-- What is to be found at one node. -/
def Node.findings (rules : RuleSet) (parent : Option Node) (depth : Nat) (node : Node) :
    List Finding :=
  let tag := node.kindTag
  Findings.ofKind tag ++ Findings.ofLengths rules node ++ Findings.ofVocabulary tag node ++
    Findings.ofValues rules tag node ++ Findings.ofWeight parent node ++
    Findings.ofExpressions rules node ++ Findings.ofNesting rules depth node

def Node.violationsAt (rules : RuleSet) (address : Address) (parent : Option Node) (depth : Nat)
    (node : Node) : List Violation :=
  (node.findings rules parent depth).map (·.locate address)

namespace Walk

/-- The violation of a child entry that is no node. -/
def malformedAt (address : Address) : Violation := ⟨⟨address, .node⟩, .malformedChildEntry⟩

mutual

/-- Visits a node and everything below it, adding what is found to `out`. -/
def visit (rules : RuleSet) (address : Address) (parent : Option Node) (depth : Nat)
    (out : Array Violation) : Node → Array Violation
  | ⟨attributes⟩ =>
    let node : Node := ⟨attributes⟩
    visitBelow rules address node depth
      (out ++ node.violationsAt rules address parent depth) attributes

/-- Visits the child entries among the attributes of `parent`: those of the first attribute that
is named `children`. -/
def visitBelow (rules : RuleSet) (address : Address) (parent : Node) (depth : Nat)
    (out : Array Violation) : List (String × AttrValue) → Array Violation
  | [] => out
  | (name, .children entries) :: rest =>
    if name = "children" then visitEntries rules address parent depth 0 out entries
    else visitBelow rules address parent depth out rest
  | (name, _) :: rest =>
    if name = "children" then out else visitBelow rules address parent depth out rest

/-- Visits the child entries of `parent` from `index` on. -/
def visitEntries (rules : RuleSet) (address : Address) (parent : Node) (depth index : Nat)
    (out : Array Violation) : List Child → Array Violation
  | [] => out
  | .node child :: rest =>
    visitEntries rules address parent depth (index + 1)
      (visit rules (address.child index) (some parent) (depth + 1) out child) rest
  | .malformed :: rest =>
    visitEntries rules address parent depth (index + 1)
      (out.push (malformedAt (address.child index))) rest

end

end Walk

/-- The violations of a layout, in document order; a valid layout has none. -/
def Node.validate (rules : RuleSet) (root : Node) : List Violation :=
  (Walk.visit rules .root none 1 #[] root).toList

end PanelLayout
