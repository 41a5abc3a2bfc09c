import PanelLayout.Node.Basic
import PanelLayout.Yaml.Value

/-!
# Nodes of a YAML value

A mapping is a node: its keys are the attribute names, by their texts, and its values are
converted one by one.  Two keys with one text meet in one attribute; the later value wins.

A sequence under the name `children` is a list of child entries, each of which must be a mapping
whose key `node` holds a mapping; elsewhere a sequence is a list of values.  Tags are looked
through everywhere, except that a tagged sequence under `children` is a plain list.
-/

namespace PanelLayout

open Yaml (Value)

mutual

/-- The attribute value of a YAML value.  `asChildren` says that a sequence is to be read as child
entries. -/
def AttrValue.ofValue (asChildren : Bool) : Value → AttrValue
  | .null => .null
  | .boolean b => .bool b
  | .integer n => .number (if n < Int.pow 2 63 then .int n else .float (.ofInt n))
  | .float x => .number (.float x)
  | .string s => .text s
  | .sequence items =>
    if asChildren then .children (Child.ofValues items) else .list (AttrValue.ofValues items)
  | .mapping entries => .map ⟨insertEntries [] entries⟩
  -- Behind a tag it does not matter any more under which name the value stands.
  | .tagged _ value => AttrValue.ofValue false value

/-- The attribute values of the items of a sequence. -/
def AttrValue.ofValues : List Value → List AttrValue
  | [] => []
  | item :: rest => AttrValue.ofValue false item :: AttrValue.ofValues rest

/-- Inserts the entries of a mapping behind the attributes already there.  The text of a key is
the text of its value, which for a string is the string itself. -/
def insertEntries (attributes : List (String × AttrValue)) :
    List (Value × Value) → List (String × AttrValue)
  | [] => attributes
  | (key, value) :: rest =>
    let name := (AttrValue.ofValue false key).render
    insertEntries (NamedList.set name (AttrValue.ofValue (name = "children") value) attributes) rest

/-- The node of a YAML value, if it is a mapping. -/
def Node.ofValue? : Value → Option Node
  | .mapping entries => some ⟨insertEntries [] entries⟩
  | .tagged _ value => Node.ofValue? value
  | _ => none

/-- The child entries that the items of a sequence are. -/
def Child.ofValues : List Value → List Child
  | [] => []
  | item :: rest => Child.ofValue item :: Child.ofValues rest

/-- The child entry of a YAML value. -/
def Child.ofValue : Value → Child
  | .mapping entries => Child.ofEntries entries
  | .tagged _ value => Child.ofValue value
  | _ => .malformed

/-- The child entry of a mapping with these entries. -/
def Child.ofEntries : List (Value × Value) → Child
  | [] => .malformed
  | (.string "node", value) :: _ =>
    match Node.ofValue? value with
    | some node => .node node
    | none => .malformed
  | _ :: rest => Child.ofEntries rest

end

end PanelLayout
