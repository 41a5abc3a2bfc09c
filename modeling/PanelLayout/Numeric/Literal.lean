import PanelLayout.Numeric.Binary64

/-!
# Reading number literals

Two grammars are read here.

* `Literal.natural?` reads digits of a base, with nothing else around them.
* `Binary64.ofLiteral?` reads a decimal floating literal: an optional sign, then `inf`,
  `infinity` or `nan` in any case, or digits with an optional point and an optional exponent.
  At least one digit must stand beside the point, and an `e` must be followed by a digit.
-/

namespace PanelLayout.Literal

/-! ## §1 Digits -/

/-- The value of a digit in bases up to sixteen. -/
def digit? (c : Char) : Option Nat :=
  if '0' ≤ c ∧ c ≤ '9' then some (c.toNat - '0'.toNat)
  else if 'a' ≤ c ∧ c ≤ 'f' then some (c.toNat - 'a'.toNat + 10)
  else if 'A' ≤ c ∧ c ≤ 'F' then some (c.toNat - 'A'.toNat + 10)
  else none

/-- The number that `cs` goes on with after `value`, in the given base. -/
def naturalFrom? (base value : Nat) : List Char → Option Nat
  | [] => some value
  | c :: rest =>
    match digit? c with
    | some d => if d < base then naturalFrom? base (value * base + d) rest else none
    | none => none

/-- The number written by `cs` in the given base; nothing is no number. -/
def natural? (base : Nat) (cs : List Char) : Option Nat :=
  if cs.isEmpty then none else naturalFrom? base 0 cs

def isDecimal (c : Char) : Bool := '0' ≤ c && c ≤ '9'

/-- The value of a run of decimal digits; the empty run is zero. -/
def runValue (cs : List Char) : Nat := (naturalFrom? 10 0 cs).getD 0

/-! ## §2 Signs -/

/-- The sign in front, `true` for minus, and what follows it. -/
def splitSign : List Char → Bool × List Char
  | '-' :: rest => (true, rest)
  | '+' :: rest => (false, rest)
  | cs => (false, cs)

/-! ## §3 Floating literals -/

/-- The exponent that `cs` is, when it is an `e` with a number behind it or nothing at all. -/
def exponent? : List Char → Option Int
  | [] => some 0
  | c :: rest =>
    if c = 'e' ∨ c = 'E' then
      let (negative, digits) := splitSign rest
      (natural? 10 digits).map fun n => if negative then -(n : Int) else n
    else none

/-- The digits behind the point, and what follows them. -/
def splitFraction : List Char → List Char × List Char
  | '.' :: rest => (rest.takeWhile isDecimal, rest.dropWhile isDecimal)
  | cs => ([], cs)

/-- An unsigned literal made of digits. -/
def digits? (negative : Bool) (cs : List Char) : Option Binary64 :=
  let whole := cs.takeWhile isDecimal
  let (fraction, rest) := splitFraction (cs.dropWhile isDecimal)
  if whole.isEmpty && fraction.isEmpty then none
  else
    (exponent? rest).map fun e =>
      .ofDecimal negative (runValue (whole ++ fraction)) (e - fraction.length)

end PanelLayout.Literal

namespace PanelLayout.Binary64

/-- The double that a floating literal stands for, rounded to nearest. -/
def ofLiteral? (text : String) : Option Binary64 :=
  let (negative, cs) := Literal.splitSign text.toList
  let word := String.ofList (cs.map Char.toLower)
  if word = "inf" ∨ word = "infinity" then some (infinite negative)
  else if word = "nan" then some nan
  else Literal.digits? negative cs

end PanelLayout.Binary64
