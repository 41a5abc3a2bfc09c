import PanelLayout.NamedList
import PanelLayout.Node.Kind
import PanelLayout.Numeric.Shortest

/-!
# Layout nodes

A node is a list of named attributes in the order in which they were first inserted; inserting a
name again replaces its value and keeps its place.  Attribute values are dynamic: scalars, lists,
mappings, and the entries of a `children` list, of which one may be malformed.

`AttrValue.render` is the text of a value.  The length limits, the expression checks and the
messages all speak about this text.
-/

namespace PanelLayout

/-! ## §1 Values -/

/-- A number of a layout document. -/
inductive Number where
  | int (value : Int)
  | float (value : Binary64)
  deriving DecidableEq, Repr

namespace Number

/-- The nearest double. -/
def toBinary64 : Number → Binary64
  | int n => .ofInt n
  | float x => x

/-- The text of a number. -/
def render : Number → String
  | int n => toString n
  | float x => x.render

end Number

mutual

/-- The value of an attribute. -/
inductive AttrValue where
  | null
  | bool (value : Bool)
  | number (value : Number)
  | text (value : String)
  | list (items : List AttrValue)
  | map (node : Node)
  | children (entries : List Child)

/-- An entry of a `children` list. -/
inductive Child where
  | node (node : Node)
  | malformed

/-- A layout node: its attributes in the order of their first insertion. -/
structure Node where
  attributes : List (String × AttrValue)

end

namespace AttrValue

/-- The name of a value's type. -/
def typeName : AttrValue → String
  | null => "null"
  | bool _ => "boolean"
  | number (.int _) => "integer"
  | number (.float _) => "float"
  | text _ => "string"
  | list _ | children _ => "array"
  | map _ => "mapping"

/-- The number that a value is. -/
def number? : AttrValue → Option Number
  | number n => some n
  | _ => none

/-- The text that a value is. -/
def text? : AttrValue → Option String
  | text s => some s
  | _ => none

end AttrValue

/-! ## §2 Rendering -/

mutual

/-- The text of a value: nothing for null, and no quotes around strings. -/
def AttrValue.render : AttrValue → String
  | .null => ""
  | .bool b => if b then "true" else "false"
  | .number n => n.render
  | .text s => s
  | .list items => "[" ++ ", ".intercalate (renderItems items) ++ "]"
  | .map node => node.render
  | .children entries => "[" ++ toString entries.length ++ " children]"

/-- The texts of a list's items. -/
def renderItems : List AttrValue → List String
  | [] => []
  | item :: rest => item.render :: renderItems rest

/-- The text of a node. -/
def Node.render : Node → String
  | ⟨attributes⟩ => "\x7b" ++ ", ".intercalate (renderAttributes attributes) ++ "\x7d"

/-- The texts of a node's attributes. -/
def renderAttributes : List (String × AttrValue) → List String
  | [] => []
  | (name, value) :: rest => (name ++ ": " ++ value.render) :: renderAttributes rest

end

namespace Node

/-! ## §3 Attributes -/

/-- The node without attributes. -/
def empty : Node := ⟨[]⟩

/-- The node with a value at a name, which keeps its place if it is already there. -/
def insert (node : Node) (name : String) (value : AttrValue) : Node :=
  ⟨NamedList.set name value node.attributes⟩

/-- The value of an attribute. -/
def get? (node : Node) (name : String) : Option AttrValue := node.attributes.lookup name

/-- Has the node this attribute? -/
def contains (node : Node) (name : String) : Bool := (node.get? name).isSome

/-- The node with these attributes inserted one after the other. -/
def ofList (attributes : List (String × AttrValue)) : Node :=
  attributes.foldl (fun node (name, value) => node.insert name value) empty

/-- What the node says about its kind.  A `type` that is no string is unknown by its text. -/
def kindTag (node : Node) : KindTag :=
  match node.get? "type" with
  | none => .missing
  | some (.text name) =>
    match NodeKind.ofName? name with
    | some kind => .known kind
    | none => .unknown name
  | some value => .unknown value.render

/-- The node's child entries, if its `children` are a list of entries. -/
def children? (node : Node) : Option (List Child) :=
  match node.get? "children" with
  | some (.children entries) => some entries
  | _ => none

/-- Does the node say `is_absolute: true`? -/
def isAbsolute (node : Node) : Bool :=
  match node.get? "is_absolute" with
  | some (.bool b) => b
  | _ => false

end Node

end PanelLayout
