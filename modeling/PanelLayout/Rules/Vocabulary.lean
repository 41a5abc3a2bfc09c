import PanelLayout.Node.Kind

/-!
# The vocabulary of node kinds

For every kind, which attributes a node must have, may have and must not have, and which of its
attributes hold coordinates.  An attribute in none of these lists is ignored.
-/

namespace PanelLayout.NodeKind

/-- The attributes that every node of the kind must have. -/
def required : NodeKind → List String
  | container => ["id", "type", "position", "anchor"]
  | text => ["id", "type", "position", "anchor", "content"]
  | icon => ["id", "type", "position", "anchor", "icon_id"]
  | line => ["id", "type", "start", "end", "thickness"]

/-- The attributes that a node of the kind may have. -/
def optional : NodeKind → List String
  | container =>
    ["direction", "alignment", "vertical_alignment", "children", "weight", "condition", "width",
      "height"]
  | text =>
    ["font_size", "alignment", "vertical_alignment", "max_width", "max_lines", "weight",
      "is_absolute", "condition", "width", "height"]
  | icon =>
    ["alignment", "vertical_alignment", "weight", "is_absolute", "condition", "width", "height"]
  | line => ["is_absolute", "condition"]

/-- The attributes that no node of the kind may have. -/
def forbidden : NodeKind → List String
  | container =>
    ["start", "end", "thickness", "is_absolute", "icon_id", "content", "font_size", "max_width",
      "max_lines"]
  | text => ["start", "end", "thickness", "icon_id"]
  | icon => ["start", "end", "thickness", "content", "font_size", "max_width", "max_lines"]
  | line =>
    ["position", "anchor", "width", "height", "icon_id", "content", "font_size", "max_width",
      "max_lines", "weight", "direction", "alignment", "vertical_alignment"]

/-- The attributes that hold `[x, y]` coordinates. -/
def coordinates : NodeKind → List String
  | line => ["start", "end"]
  | _ => ["position"]

/-- The kinds that may be placed absolutely. -/
def absoluteKinds : List NodeKind := [text, icon, line]

def allowsAbsolute (kind : NodeKind) : Bool := kind ∈ absoluteKinds

end PanelLayout.NodeKind
