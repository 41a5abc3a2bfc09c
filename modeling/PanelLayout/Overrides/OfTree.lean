import PanelLayout.Numeric.Shortest
import PanelLayout.Overrides.Basic
import PanelLayout.Text.Quoted
import PanelLayout.Yaml.Scalar
import PanelLayout.Yaml.Tree

/-!
# Overrides of a YAML document

A rule override document is a mapping of settings.  It is read from the tree of the document, in
the order in which it is written, and the first thing that does not fit is reported: a field that
is not known or stands twice, a value of the wrong type or size, a required field that is missing
at the end of its mapping.

Texts and field names are taken as they are written, whatever they would stand for.  Where a
collection is wanted, the empty plain scalar is the empty collection; where a setting may be left
out, null leaves it out.
-/

namespace PanelLayout

open Yaml (Tree Style Scalar Tag Rejection)

/-! ## §1 What does not fit -/

/-- What was found in the place of something else. -/
inductive Found where
  | scalar (value : Scalar)
  | sequence
  | mapping
  deriving Repr

/-- The description of an integer; beyond sixty-four bits its width is told too. -/
def Found.integer (n : Int) : String :=
  let width :=
    if Int.pow 2 64 ≤ n then " as u128" else if n < -Int.pow 2 63 then " as i128" else ""
  "integer `" ++ toString n ++ "`" ++ width

def Found.render : Found → String
  | scalar .null => "unit value"
  | scalar (.boolean b) => "boolean `" ++ toString b ++ "`"
  | scalar (.integer n) => Found.integer n
  | scalar (.float x) => "floating point `" ++ x.renderWithPoint ++ "`"
  | scalar (.string s) => "string " ++ Text.quoted s
  | sequence => "sequence"
  | mapping => "map"

/-- Why a document is no overrides. -/
inductive DecodeError where
  | unreadable (cause : Rejection)
  | unknownField (name : String) (fields : List String)
  | missingField (name : String)
  | duplicateField (name : String)
  | invalidType (found : Found) (wanted : String)
  | invalidValue (found : Found) (wanted : String)
  deriving Repr

namespace DecodeError

def quoteName (name : String) : String := "`" ++ name ++ "`"

/-- The fields that would have been known. -/
def listFields : List String → String
  | [a, b] => quoteName a ++ " or " ++ quoteName b
  | fields => "one of " ++ ", ".intercalate (fields.map quoteName)

def message : DecodeError → String
  | unreadable cause => cause.message
  | unknownField name fields =>
    "unknown field " ++ quoteName name ++ ", expected " ++ listFields fields
  | missingField name => "missing field " ++ quoteName name
  | duplicateField name => "duplicate field " ++ quoteName name
  | invalidType found wanted => "invalid type: " ++ found.render ++ ", expected " ++ wanted
  | invalidValue found wanted => "invalid value: " ++ found.render ++ ", expected " ++ wanted

end DecodeError

namespace Overrides

/-- What reading a part of the document gives. -/
abbrev Decoded := Except DecodeError

/-! ## §2 Scalars -/

/-- What a core tag wants. -/
def coreTagWants : Scalar.CoreTag → String
  | .null => "null"
  | .boolean => "a boolean"
  | .integer => "an integer"
  | .float => "a float"

/-- The error of a tree that is not what is wanted. -/
def misfit (wanted : String) : Tree → DecodeError
  | .unreadable cause => .unreadable cause
  | .sequence .. => .invalidType .sequence wanted
  | .mapping .. => .invalidType .mapping wanted
  | .scalar tag style text =>
    match Scalar.ofWritten? tag style text with
    | .ok scalar => .invalidType (.scalar scalar) wanted
    | .error core => .invalidValue (.scalar (.string text)) (coreTagWants core)

/-- The text of a scalar as it is written. -/
def text (wanted : String) : Tree → Decoded String
  | .scalar _ _ text => .ok text
  | tree => .error (misfit wanted tree)

/-- May a scalar written like this be read as the type of the core tag?  Plain scalars may, and
literal ones that bear the tag. -/
def mayBe (core : Scalar.CoreTag) (tag : Option Tag) (style : Style) : Bool :=
  style = .plain || (style = .literal && tag.bind Scalar.coreTag? = some core)

/-- A natural number of at most sixty-four bits. -/
def natural (wanted : String) (tree : Tree) : Decoded Nat :=
  let number? := match tree with
    | .scalar tag style text =>
      if mayBe .integer tag style then Scalar.natural? (Nat.pow 2 64) text.toList else Option.none
    | _ => Option.none
  match number? with
  | some n => .ok n
  | .none => .error (misfit wanted tree)

/-- A natural number of at most thirty-two bits. -/
def side (tree : Tree) : Decoded UInt32 := do
  let n ← natural "u32" tree
  if n < Nat.pow 2 32 then .ok (.ofNat n) else .error (.invalidValue (.scalar (.integer n)) "u32")

def float (tree : Tree) : Decoded Binary64 :=
  let number? := match tree with
    | .scalar tag style text =>
      if mayBe .float tag style then Scalar.float? text else Option.none
    | _ => Option.none
  match number? with
  | some x => .ok x
  | .none => .error (misfit "f64" tree)

/-- Is this the empty plain scalar? -/
def isAbsent : Tree → Bool
  | .scalar _ style text => style = .plain && text.isEmpty
  | _ => false

/-- What may be left out: null, or nothing, leaves it out.  A plain scalar that is forced to be
null must be a word for it. -/
def optional {α : Type} (decode : Tree → Decoded α) (tree : Tree) : Decoded (Option α) :=
  match tree with
  | .scalar tag .plain text =>
    match tag with
    | .none =>
      if text.isEmpty || Scalar.isNullWord text then .ok .none else (decode tree).map some
    | some tag =>
      if Scalar.coreTag? tag = some .null then
        if Scalar.isNullWord text then .ok .none
        else .error (.invalidValue (.scalar (.string text)) "null")
      else (decode tree).map some
  | _ => (decode tree).map some

/-! ## §3 Collections -/

def items : Tree → Decoded (List Tree)
  | .sequence _ items => .ok items
  | tree => if isAbsent tree then .ok [] else .error (misfit "a sequence" tree)

def entries (wanted : String) : Tree → Decoded (List (Tree × Tree))
  | .mapping _ entries => .ok entries
  | tree => if isAbsent tree then .ok [] else .error (misfit wanted tree)

/-- A table of named values; of two equal names the later wins. -/
def table {α : Type} (decode : Tree → Decoded α) (tree : Tree) : Decoded (NameTable α) := do
  let named ← (← entries "a map" tree).mapM fun (key, value) => do
    let name ← text "a string" key
    let value ← decode value
    .ok (name, value)
  .ok (.ofList named)

/-- The fields of a mapping: each known, and none twice.  `seen` are the fields before these. -/
def fieldsFrom {α : Type} (known : List String) (decode : String → Tree → Decoded α)
    (seen : List String) : List (Tree × Tree) → Decoded (List (String × α))
  | [] => .ok []
  | (key, value) :: rest => do
    let name ← text "field identifier" key
    if name ∉ known then .error (.unknownField name known)
    else if name ∈ seen then .error (.duplicateField name)
    else
      let value ← decode name value
      let others ← fieldsFrom known decode (name :: seen) rest
      .ok ((name, value) :: others)

/-- The fields of a mapping that is wanted as a whole. -/
def fields {α : Type} (wanted : String) (known : List String) (decode : String → Tree → Decoded α)
    (tree : Tree) : Decoded (List (String × α)) := do
  fieldsFrom known decode [] (← entries wanted tree)

def required {α : Type} (name : String) (fields : List (String × α)) : Decoded α :=
  match fields.lookup name with
  | some value => .ok value
  | .none => .error (.missingField name)

/-! ## §4 Settings -/

/-- How single values are read: the side of a canvas, a count, a size and a word. -/
structure Decoders where
  side : Tree → Decoded UInt32
  count : Tree → Decoded Nat
  size : Tree → Decoded Binary64
  word : Tree → Decoded String

/-- Single values are read as the types of the settings want them. -/
def Decoders.typed : Decoders where
  side := Overrides.side
  count := natural "usize"
  size := float
  word := text "a string"

def canvasOfTree (decoders : Decoders) (tree : Tree) : Decoded Canvas := do
  let found ← fields "struct CanvasOverride" ["width", "height"] (fun _ => decoders.side) tree
  let width ← required "width" found
  let height ← required "height" found
  .ok ⟨width, height⟩

def limitsOfTree (decoders : Decoders) (tree : Tree) : Decoded LimitOverrides := do
  let found ← fields "struct LimitOverrides"
    ["max_node_depth", "max_children", "max_expression_depth"]
    (fun _ => optional decoders.count) tree
  let limit (name : String) : Option Nat := (found.lookup name).join
  .ok ⟨limit "max_node_depth", limit "max_children", limit "max_expression_depth"⟩

/-- One setting of an override document. -/
inductive Setting where
  | canvas (value : Option Canvas)
  | fontSizes (value : Option (NameTable Binary64))
  | iconModules (value : Option (List String))
  | limits (value : Option LimitOverrides)
  | maxLengths (value : Option (NameTable Nat))

def put (overrides : Overrides) : Setting → Overrides
  | .canvas value => { overrides with canvas := value }
  | .fontSizes value => { overrides with fontSizes := value }
  | .iconModules value => { overrides with iconModules := value }
  | .limits value => { overrides with limits := value }
  | .maxLengths value => { overrides with maxLengths := value }

def settingNames : List String :=
  ["canvas", "font_sizes", "icon_modules", "limits", "max_lengths"]

/-- The setting of that name. -/
def settingOfTree (decoders : Decoders) (name : String) (tree : Tree) : Decoded Setting :=
  match name with
  | "canvas" => (optional (canvasOfTree decoders) tree).map .canvas
  | "font_sizes" => (optional (table decoders.size) tree).map .fontSizes
  | "icon_modules" =>
    (optional (fun tree => do (← items tree).mapM decoders.word) tree).map .iconModules
  | "limits" => (optional (limitsOfTree decoders) tree).map .limits
  | "max_lengths" => (optional (table decoders.count) tree).map .maxLengths
  | _ => .error (.unknownField name settingNames)

/-- The overrides that a tree describes to given decoders. -/
def ofTreeBy (decoders : Decoders) (tree : Tree) : Decoded Overrides := do
  let found ← fields "struct RuleOverrides" settingNames (settingOfTree decoders) tree
  .ok (found.foldl (fun overrides (_, setting) => overrides.put setting) .none)

/-- The overrides that a tree describes. -/
def ofTree (tree : Tree) : Decoded Overrides := ofTreeBy .typed tree

/-- The overrides that a text describes, which must hold one document and nothing else. -/
def ofText (text : String) : Decoded Overrides := do
  let document := Tree.Document.ofText text
  -- What does not fit is told first, even if the text breaks a rule further down.
  let overrides ← ofTree document.root
  match document.trailing with
  | some cause => .error (.unreadable cause)
  | .none => .ok overrides

end Overrides

end PanelLayout
