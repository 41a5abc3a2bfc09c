/-!
# Kinds of layout node

A node is a container, a text, an icon or a line.  A `KindTag` is what the `type` attribute of a
node says about its kind.
-/

namespace PanelLayout

/-- The kinds of layout node. -/
inductive NodeKind where
  | container
  | text
  | icon
  | line
  deriving DecidableEq, Repr

namespace NodeKind

/-- All kinds, in the order in which they are listed to the user. -/
def all : List NodeKind := [container, text, icon, line]

/-- The name of a kind. -/
def name : NodeKind → String
  | container => "container"
  | text => "text"
  | icon => "icon"
  | line => "line"

/-- The kind of that name. -/
def ofName? : String → Option NodeKind
  | "container" => some container
  | "text" => some text
  | "icon" => some icon
  | "line" => some line
  | _ => none

/-- The names of some kinds, as they are listed to the user. -/
def listNames (kinds : List NodeKind) : String := ", ".intercalate (kinds.map name)

end NodeKind

/-- What the `type` attribute of a node says about its kind. -/
inductive KindTag where
  | missing
  | known (kind : NodeKind)
  | unknown (text : String)
  deriving DecidableEq, Repr

/-- The kind, if it is known. -/
def KindTag.kind? : KindTag → Option NodeKind
  | known kind => some kind
  | _ => none

end PanelLayout
