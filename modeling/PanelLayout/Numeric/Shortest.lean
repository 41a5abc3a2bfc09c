import PanelLayout.Numeric.Binary64

/-!
# The shortest text of a double

A double is written with the fewest decimal digits that read back as the same double, the
nearest such decimal being taken, and always positionally: no exponent, no `.0` on whole
numbers.

The decimals that read back form an interval around the number.  `Shortest.search` walks down
the decimal grids `10ᵏ` and stops at the first grid with a point in that interval; a coarser
grid means fewer digits.
-/

namespace PanelLayout.Shortest

open PanelLayout.Binary64 (gapLog unitsPerOne)

/-! ## §1 The interval of decimals that read back -/

/-- The interval, in quarters of a unit, of what rounds to one double.  Its ends belong to it
when the double's significand is even. -/
structure Basin where
  low : Nat
  high : Nat
  closed : Bool

/-- The basin of the double of `units` units.  A power of two has a neighbour at half the gap
below it, unless the gap is already one unit. -/
def Basin.ofUnits (units : Nat) : Basin :=
  let shift := gapLog units
  let gap := Nat.pow 2 shift
  -- Half of the distance to the neighbour below, in quarters of a unit.
  let below := if 0 < shift ∧ units = Nat.pow 2 (shift + 52) then gap else 2 * gap
  ⟨4 * units - below, 4 * units + 2 * gap, units / gap % 2 = 0⟩

/-- Does `num / den` units lie in the basin? -/
def Basin.holds (basin : Basin) (num den : Nat) : Bool :=
  let value := 4 * num
  if basin.closed then basin.low * den ≤ value && value ≤ basin.high * den
  else basin.low * den < value && value < basin.high * den

/-! ## §2 Decimal grids -/

/-- `count · 10 ^ exponent` as a quotient of units. -/
def gridPoint (count : Nat) (exponent : Int) : Nat × Nat :=
  if 0 ≤ exponent then (count * Nat.pow 10 exponent.toNat * unitsPerOne, 1)
  else (count * unitsPerOne, Nat.pow 10 (-exponent).toNat)

/-- The point of the grid `10 ^ exponent` that reads back as `units`, if there is one: of two
neighbours that both do the nearer, and the upper one when they are equally near. -/
def onGrid? (units : Nat) (exponent : Int) : Option Nat :=
  let basin := Basin.ofUnits units
  let (num, den) := gridPoint 1 exponent
  let lower := units * den / num
  let readsBack (count : Nat) : Bool := count ≠ 0 && basin.holds (count * num) den
  let remainder := units * den % num
  match readsBack lower, readsBack (lower + 1) with
  | true, true => some (if num ≤ 2 * remainder then lower + 1 else lower)
  | true, false => some lower
  | false, true => some (lower + 1)
  | false, false => none

/-- The coarsest grid at or below `10 ^ exponent` with a point that reads back, and that point.
No double needs a grid below `10⁻¹⁰⁷⁴`, so `fuel` never runs out. -/
def search (units : Nat) : Nat → Int → Nat × Int
  | 0, exponent => (0, exponent)
  | fuel + 1, exponent =>
    match onGrid? units exponent with
    | some count => (count, exponent)
    | none => search units fuel (exponent - 1)

/-- The shortest decimal `digits · 10 ^ exponent` that reads back as `units`. -/
def decimal (units : Nat) : Nat × Int :=
  let whole := (Nat.toDigits 10 (units / unitsPerOne)).length
  search units (whole + 1100) whole

/-! ## §3 Positional text -/

/-- `digits · 10 ^ exponent` written positionally. -/
def positional (digits : Nat) (exponent : Int) : String :=
  let shown := Nat.toDigits 10 digits
  if 0 ≤ exponent then String.ofList (shown ++ List.replicate exponent.toNat '0')
  else
    let places := (-exponent).toNat
    let padded := List.replicate (places + 1 - shown.length) '0' ++ shown
    let split := padded.length - places
    String.ofList (padded.take split ++ '.' :: padded.drop split)

end PanelLayout.Shortest

namespace PanelLayout.Binary64

/-- The shortest positional text of a double. -/
def render : Binary64 → String
  | nan => "NaN"
  | infinite negative => if negative then "-inf" else "inf"
  | finite negative units =>
    let sign := if negative then "-" else ""
    if units = 0 then sign ++ "0"
    else
      let (digits, exponent) := Shortest.decimal units
      sign ++ Shortest.positional digits exponent

/-- The text of a double that shows it is one: a whole number gets `.0`. -/
def renderWithPoint (x : Binary64) : String :=
  let text := x.render
  if x.isFinite && !text.toList.contains '.' then text ++ ".0" else text

end PanelLayout.Binary64
