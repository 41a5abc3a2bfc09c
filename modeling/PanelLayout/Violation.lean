import PanelLayout.Problem

/-!
# Findings and violations

The checks of one node know nothing of where the node stands: a `Finding` is a problem at a place
of the node.  A `Violation` is a problem at a place of a document; it arises when a finding is
put at the address of its node.
-/

namespace PanelLayout

/-! ## §1 Places -/

/-- A place of one node: the node itself, an attribute, or a component of a coordinate. -/
inductive Place where
  | node
  | field (name : String)
  | component (name : String) (axis : Axis)
  deriving DecidableEq, Repr

/-- The text of a place, behind the text of its node. -/
def Place.render : Place → String
  | node => ""
  | field name => "." ++ name
  | component name axis => "." ++ name ++ "." ++ axis.name

/-- The address of a node: a base and the indices of the children to go to from there. -/
structure Address where
  base : String
  steps : List Nat
  deriving DecidableEq, Repr

namespace Address

def root : Address := ⟨"root", []⟩

def child (address : Address) (index : Nat) : Address :=
  { address with steps := address.steps ++ [index] }

def renderStep (index : Nat) : String := ".children[" ++ toString index ++ "]"

/-- The text of an address. -/
def render (address : Address) : String :=
  address.base ++ String.join (address.steps.map renderStep)

end Address

/-- A place of a document. -/
structure Location where
  address : Address
  place : Place
  deriving DecidableEq, Repr

namespace Location

/-- The place of a text that is no document. -/
def nowhere : Location := ⟨⟨"", []⟩, .node⟩

/-- The text of a location. -/
def render (location : Location) : String :=
  location.address.render ++ location.place.render

end Location

/-! ## §2 Findings and violations -/

/-- A problem at a place of one node. -/
structure Finding where
  place : Place
  problem : Problem
  deriving DecidableEq, Repr

/-- A problem at a place of a document. -/
structure Violation where
  location : Location
  problem : Problem
  deriving DecidableEq, Repr

/-- The violation that a finding is for the node of that address. -/
def Finding.locate (address : Address) (finding : Finding) : Violation :=
  ⟨⟨address, finding.place⟩, finding.problem⟩

namespace Violation

def path (violation : Violation) : String := violation.location.render

def message (violation : Violation) : String := violation.problem.message

/-- The message with its location in front, if that has a text. -/
def render (violation : Violation) : String :=
  if violation.path.isEmpty then violation.message
  else "[" ++ violation.path ++ "] " ++ violation.message

end Violation

end PanelLayout
