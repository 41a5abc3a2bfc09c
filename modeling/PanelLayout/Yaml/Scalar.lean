import PanelLayout.Numeric.Literal
import PanelLayout.Yaml.Token

/-!
# What a plain scalar stands for

A plain scalar without a tag is resolved by its text: null, a boolean, an integer, a floating
number, or else a string.  Integers have a sign and one of four bases; a decimal integer has no
needless leading zero, and a text that is only wrong in this stays a string.

`Scalar.ofPlain` resolves a text and `Scalar.ofWritten?` also takes the tag and the style of a
scalar into account.
-/

namespace PanelLayout.Yaml

/-- What a scalar stands for. -/
inductive Scalar where
  | null
  | boolean (value : Bool)
  | integer (value : Int)
  | float (value : Binary64)
  | string (text : String)
  deriving DecidableEq, Repr

namespace Scalar

/-! ## §1 Words -/

/-- The words for null, the empty text aside. -/
def isNullWord (text : String) : Bool :=
  text = "null" || text = "Null" || text = "NULL" || text = "~"

def boolean? (text : String) : Option Bool :=
  if text = "true" || text = "True" || text = "TRUE" then some true
  else if text = "false" || text = "False" || text = "FALSE" then some false
  else none

/-! ## §2 Integers -/

/-- The first number that is too large for the widest unsigned reading. -/
def widest : Nat := Nat.pow 2 128

def startsWithSign : List Char → Bool
  | '+' :: _ | '-' :: _ => true
  | _ => false

/-- Two or more digits of which the first is zero, with or without a sign: a string. -/
def hasNeedlessZero (cs : List Char) : Bool :=
  match (Literal.splitSign cs).2 with
  | '0' :: d :: rest => Literal.isDecimal d && rest.all Literal.isDecimal
  | _ => false

/-- What an integer's text gives in a base, if it is below `limit`. -/
def below? (limit base : Nat) (cs : List Char) : Option Nat :=
  (Literal.natural? base cs).filter (· < limit)

/-- The base that a text names in front, and its digits. -/
def splitBase? : List Char → Option (Nat × List Char)
  | '0' :: 'x' :: digits => some (16, digits)
  | '0' :: 'o' :: digits => some (8, digits)
  | '0' :: 'b' :: digits => some (2, digits)
  | _ => none

/-- A non-negative integer below `limit`: one `+` may stand in front. -/
def natural? (limit : Nat) (cs : List Char) : Option Nat :=
  let unsigned := match cs with
    | '+' :: rest => rest
    | _ => cs
  match splitBase? unsigned with
  | some (base, digits) => below? limit base digits
  | none =>
    if startsWithSign unsigned || hasNeedlessZero cs then none
    else below? limit 10 unsigned

/-- The magnitude of a negative integer, if it is at most `limit`. -/
def negative? (limit : Nat) (cs : List Char) : Option Nat :=
  match cs with
  | '-' :: rest =>
    match splitBase? rest with
    | some (base, digits) => below? (limit + 1) base digits
    | none => if hasNeedlessZero cs then none else below? (limit + 1) 10 rest
  | _ => none

/-- An integer in the widest range that is read as one. -/
def integer? (cs : List Char) : Option Int :=
  match natural? widest cs with
  | some n => some n
  | none => (negative? (widest / 2) cs).map fun n => -(n : Int)

/-! ## §3 Floating numbers -/

/-- A finite decimal literal, or an infinity or `nan` written with a leading point. -/
def float? (text : String) : Option Binary64 :=
  if text = ".nan" || text = ".NaN" || text = ".NAN" then some .nan
  else if text = "-.inf" || text = "-.Inf" || text = "-.INF" then some (.infinite true)
  else
    let unsigned := match text.toList with
      | '+' :: rest => rest
      | cs => cs
    if unsigned.length < text.length && startsWithSign unsigned then none
    else
      let bare := String.ofList unsigned
      if bare = ".inf" || bare = ".Inf" || bare = ".INF" then some (.infinite false)
      else (Binary64.ofLiteral? bare).filter (·.isFinite)

/-! ## §4 Resolution -/

/-- What a plain scalar without a tag stands for. -/
def ofPlain (text : String) : Scalar :=
  if text.isEmpty || isNullWord text then null
  else
    match boolean? text, integer? text.toList with
    | some b, _ => boolean b
    | none, some n => integer n
    | none, none =>
      -- Such a text would be a floating literal, but its zero makes it a string.
      if hasNeedlessZero text.toList then string text
      else
        match float? text with
        | some x => float x
        | none => string text

/-- The tags that force a type. -/
inductive CoreTag where
  | null
  | boolean
  | integer
  | float
  deriving DecidableEq, Repr

def coreTag? (tag : Tag) : Option CoreTag :=
  if tag = .core "null" then some .null
  else if tag = .core "bool" then some .boolean
  else if tag = .core "int" then some .integer
  else if tag = .core "float" then some .float
  else none

/-- A text read as the type that a core tag forces. -/
def ofForced? (tag : CoreTag) (text : String) : Option Scalar :=
  match tag with
  | .null => if isNullWord text then some null else none
  | .boolean => (boolean? text).map boolean
  | .integer => (integer? text.toList).map integer
  | .float => (float? text).map float

/-- What a written scalar stands for, a local tag aside.  A scalar that does not fit the core tag
it bears gives that tag. -/
def ofWritten? (tag : Option Tag) (style : Style) (text : String) : Except CoreTag Scalar :=
  let untagged := if style = .plain then ofPlain text else string text
  match tag with
  | none => .ok untagged
  | some tag =>
    match coreTag? tag with
    | some core =>
      match ofForced? core text with
      | some scalar => .ok scalar
      | none => .error core
    | none => .ok (if tag.isLocal then untagged else string text)

end Scalar

end PanelLayout.Yaml
