import PanelLayout.Yaml.Scalar
import PanelLayout.Yaml.Tree

/-!
# YAML values

A `Value` is what a document means: scalars are resolved, and local tags are kept around the
values they stand on.  Tags of other kinds, and local tags that encode no text, leave no trace once
they have decided what a scalar stands for.

`Value.ofText?` reads a text as one value.  It refuses a text that cannot be read as one document,
a mapping that repeats a key, and a scalar that does not fit its tag or the range of integers.
-/

namespace PanelLayout.Yaml

/-- What a YAML document means. -/
inductive Value where
  | null
  | boolean (value : Bool)
  | integer (value : Int)
  | float (value : Binary64)
  | string (text : String)
  | sequence (items : List Value)
  | mapping (entries : List (Value × Value))
  | tagged (tag : String) (value : Value)
  deriving Repr

namespace Value

/-! ## §1 Keys -/

/-- Are two floating numbers the same key?  The zeros are, and so is `nan` with itself. -/
def sameFloat (a b : Binary64) : Bool := a.equals b || (a.isNan && b.isNan)

/-- The characters of a tag's name without one `!` in front; the lone `!` stays as it is. -/
def bareName : List Char → List Char
  | '!' :: c :: rest => c :: rest
  | cs => cs

/-- Do two names stand for one tag?  One `!` in front makes no difference. -/
def sameTag (s t : String) : Bool := bareName s.toList == bareName t.toList

mutual

/-- Are two values the same key?  The order of the entries of a mapping does not matter. -/
def same : Value → Value → Bool
  | null, null => true
  | boolean a, boolean b => a == b
  | integer a, integer b => a == b
  | float a, float b => sameFloat a b
  | string a, string b => a == b
  | sequence as, sequence bs => sameItems as bs
  | mapping as, mapping bs => as.length == bs.length && coveredBy as bs
  | tagged s a, tagged t b => sameTag s t && same a b
  | _, _ => false

/-- Are two lists of values the same, place by place? -/
def sameItems : List Value → List Value → Bool
  | [], [] => true
  | a :: as, b :: bs => same a b && sameItems as bs
  | _, _ => false

/-- Does every entry occur among others? -/
def coveredBy : List (Value × Value) → List (Value × Value) → Bool
  | [], _ => true
  | (key, value) :: rest, others =>
    others.any (fun other => same key other.1 && same value other.2) && coveredBy rest others

end

/-! ## §2 From trees -/

/-- The range of integers that a value may hold. -/
def isIntegerInRange (n : Int) : Bool := -Int.pow 2 63 ≤ n && n < Int.pow 2 64

def ofScalar : Scalar → Except Rejection Value
  | .null => .ok null
  | .boolean b => .ok (boolean b)
  | .integer n => if isIntegerInRange n then .ok (integer n) else .error .unfitScalar
  | .float x => .ok (float x)
  | .string text => .ok (string text)

/-- The value with the name of its local tag around it, if it has one. -/
def withTag (tag : Option Tag) (value : Value) : Value :=
  match tag.bind (·.localName?) with
  | some name => tagged name value
  | none => value

mutual

/-- The value that a tree means. -/
def ofTree? : Tree → Except Rejection Value
  | .scalar tag style text =>
    match Scalar.ofWritten? tag style text with
    | .ok scalar => (ofScalar scalar).map (withTag tag)
    | .error _ => .error .unfitScalar
  | .sequence tag items => (ofItems? items).map fun values => withTag tag (sequence values)
  | .mapping tag entries => (ofEntries? [] entries).map fun values => withTag tag (mapping values)
  | .unreadable cause => .error cause

/-- The values that the items of a sequence mean. -/
def ofItems? : List Tree → Except Rejection (List Value)
  | [] => .ok []
  | item :: rest => do
    let value ← ofTree? item
    let values ← ofItems? rest
    .ok (value :: values)

/-- The entries that a mapping means; `known` are the keys before these. -/
def ofEntries? (known : List Value) :
    List (Tree × Tree) → Except Rejection (List (Value × Value))
  | [] => .ok []
  | (key, value) :: rest => do
    let key ← ofTree? key
    -- A repeated key is refused before its value is looked at.
    if known.any (same key) then .error .duplicateKey
    else
      let value ← ofTree? value
      let entries ← ofEntries? (key :: known) rest
      .ok ((key, value) :: entries)

end

/-! ## §3 From text -/

/-- The value of a document that is readable to its end. -/
def ofDocument? (document : Tree.Document) : Except Rejection Value := do
  let value ← ofTree? document.root
  match document.trailing with
  | some cause => .error cause
  | none => .ok value

def ofText? (text : String) : Except Rejection Value := ofDocument? (.ofText text)

/-! ## §4 Tags -/

/-- The value without the tags that stand directly on it. -/
def untagged : Value → Value
  | tagged _ value => untagged value
  | value => value

end Value

end PanelLayout.Yaml
