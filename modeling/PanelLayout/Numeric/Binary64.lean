/-!
# Double-precision numbers

A `Binary64` is a double seen as a point of the number line: every finite double is a whole
multiple of `2⁻¹⁰⁷⁴`, so it is stored as a sign and that multiple.  Comparison is then the
comparison of integers, and rounding is the rounding of a quotient of natural numbers; no
machine floating point is involved.

* `Binary64.ofRatio`, `Binary64.ofInt` and `Binary64.ofDecimal` round to nearest, ties to even.
* `Binary64.le` and `Binary64.lt` are the orders of the standard, in which nothing compares
  with `nan`.
-/

namespace PanelLayout

/-- A double: not a number, an infinity, or `± units · 2⁻¹⁰⁷⁴`.  The two zeros differ in sign. -/
inductive Binary64 where
  | nan
  | infinite (negative : Bool)
  | finite (negative : Bool) (units : Nat)
  deriving DecidableEq, Repr

namespace Binary64

/-! ## §1 The number line -/

/-- How many units make one. -/
def unitsPerOne : Nat := Nat.pow 2 1074

/-- The first magnitude, in units, that is too large for a double: `2¹⁰²⁴`. -/
def overflow : Nat := Nat.pow 2 2098

/-- Where a number stands on the line, in units.  An infinity stands beyond every double, and
`nan` stands nowhere. -/
def position : Binary64 → Option Int
  | nan => none
  | infinite false => some overflow
  | infinite true => some (-overflow)
  | finite false units => some units
  | finite true units => some (-units)

/-- `a ≤ b` as the standard orders doubles. -/
def le (a b : Binary64) : Bool :=
  match a.position, b.position with
  | some i, some j => decide (i ≤ j)
  | _, _ => false

/-- `a < b` as the standard orders doubles. -/
def lt (a b : Binary64) : Bool :=
  match a.position, b.position with
  | some i, some j => decide (i < j)
  | _, _ => false

/-- `a = b` as the standard compares doubles: the zeros are equal and `nan` equals nothing. -/
def equals (a b : Binary64) : Bool :=
  match a.position, b.position with
  | some i, some j => decide (i = j)
  | _, _ => false

def isFinite : Binary64 → Bool
  | finite _ _ => true
  | _ => false

def isNan : Binary64 → Bool
  | nan => true
  | _ => false

def zero : Binary64 := finite false 0

/-! ## §2 Rounding -/

/-- The whole number nearest to `num / den`, a half going to the even neighbour. -/
def roundHalfEven (num den : Nat) : Nat :=
  let quotient := num / den
  let twice := 2 * (num % den)
  if twice < den then quotient
  else if den < twice then quotient + 1
  else quotient + quotient % 2

/-- The binary logarithm of the gap between neighbouring doubles at `units`: fifty-three bits
are kept, and no gap is below one unit. -/
def gapLog (units : Nat) : Nat := units.log2 - 52

/-- The magnitude, in units, of the double nearest to `num / den` units. -/
def roundUnits (num den : Nat) : Nat :=
  let shift := gapLog (num / den)
  roundHalfEven num (den * Nat.pow 2 shift) * Nat.pow 2 shift

/-- The double nearest to `± num / den`; what reaches `2¹⁰²⁴` is an infinity. -/
def ofRatio (negative : Bool) (num den : Nat) : Binary64 :=
  let units := roundUnits (num * unitsPerOne) den
  if units < overflow then finite negative units else infinite negative

/-- The double nearest to a natural number. -/
def ofNat (n : Nat) : Binary64 := ofRatio false n 1

def ofInt (n : Int) : Binary64 := ofRatio (decide (n < 0)) n.natAbs 1

/-- How many decimal digits a number has (`0` has none). -/
def digitCount (n : Nat) : Nat := if n = 0 then 0 else (Nat.toDigits 10 n).length

/-- The double nearest to `± digits · 10 ^ exponent`.  Magnitudes that are certain to overflow
or to vanish are settled by counting digits, so that a huge exponent costs nothing. -/
def ofDecimal (negative : Bool) (digits : Nat) (exponent : Int) : Binary64 :=
  let magnitude : Int := digitCount digits + exponent
  if digits = 0 ∨ magnitude < -330 then finite negative 0
  else if 310 < magnitude then infinite negative
  else if 0 ≤ exponent then ofRatio negative (digits * Nat.pow 10 exponent.toNat) 1
  else ofRatio negative digits (Nat.pow 10 (-exponent).toNat)

end Binary64

end PanelLayout
