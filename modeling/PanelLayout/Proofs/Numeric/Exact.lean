import Mathlib.Algebra.Order.Field.Rat
import Mathlib.Data.Rat.Cast.Order
import PanelLayout.Node.Basic
import PanelLayout.Proofs.Numeric.Rounding

/-!
# Numbers as rational numbers

What a number is, said without the comparison of doubles: an integer is itself, and a finite double
is a rational number.  `Number.AtLeast` and `Number.AtMost` compare a number with a bound in this
sense.

The checks compare doubles, and make a double of an integer for that.  With a bound that is small
enough to have doubles for neighbours it comes to the same: `le_toBinary64_iff` and
`toBinary64_le_iff`.
-/

namespace PanelLayout

/-! ## §1 What a number is -/

namespace Binary64

/-- The least positive double, of which the others are multiples. -/
def unit : ℚ := 1 / (Nat.pow 2 1074 : ℕ)

/-- The rational number that a finite double is. -/
def toRat : Binary64 → ℚ
  | finite false units => units * unit
  | finite true units => -(units * unit)
  | _ => 0

end Binary64

namespace Number

/-- The number is no less than a bound. -/
def AtLeast (bound : ℚ) : Number → Prop
  | .int n => bound ≤ n
  | .float (.finite negative units) => bound ≤ (Binary64.finite negative units).toRat
  | .float (.infinite negative) => negative = false
  | .float .nan => False

/-- The number is no more than a bound. -/
def AtMost (bound : ℚ) : Number → Prop
  | .int n => n ≤ bound
  | .float (.finite negative units) => (Binary64.finite negative units).toRat ≤ bound
  | .float (.infinite negative) => negative = true
  | .float .nan => False

/-- A number from `min` on, up to `max` if that is given. -/
structure InRange (min : ℚ) (max : Option ℚ) (n : Number) : Prop where
  low : n.AtLeast min
  high : ∀ top ∈ max, n.AtMost top

theorem inRange_some_iff {n : Number} {min top : ℚ} :
    n.InRange min (some top) ↔ n.AtLeast min ∧ n.AtMost top := by
  constructor
  · rintro ⟨hlow, hhigh⟩
    exact ⟨hlow, hhigh top rfl⟩
  · rintro ⟨hlow, hhigh⟩
    exact ⟨hlow, fun other hother => Option.mem_some_iff.1 hother ▸ hhigh⟩

theorem inRange_none_iff {n : Number} {min : ℚ} : n.InRange min none ↔ n.AtLeast min :=
  ⟨fun h => h.low, fun h => ⟨h, fun _ htop => nomatch htop⟩⟩

variable {n : ℤ}

theorem atLeast_zero_int_iff : (int n).AtLeast 0 ↔ 0 ≤ n := Int.cast_nonneg_iff

theorem atLeast_int_iff {low : ℕ} : (int n).AtLeast low ↔ low ≤ n := by
  rw [AtLeast, ← Int.cast_natCast, Int.cast_le]

theorem atMost_int_iff {top : ℕ} : (int n).AtMost top ↔ n ≤ top := by
  rw [AtMost, ← Int.cast_natCast, Int.cast_le]

end Number

namespace Binary64

/-! ## §2 Places and rational numbers -/

theorem unitsPerOne_mul_unit : (unitsPerOne : ℚ) * unit = 1 := by
  have hone : unitsPerOne ≠ 0 := unitsPerOne_pos.ne'
  unfold unit unitsPerOne at *
  exact mul_one_div_cancel (Nat.cast_ne_zero.2 hone)

theorem unit_pos : 0 < unit := by
  have hone : 0 < (unitsPerOne : ℚ) * unit := unitsPerOne_mul_unit ▸ one_pos
  exact pos_of_mul_pos_right hone (Nat.cast_nonneg _)

/-- The place of a finite double, in units. -/
theorem toRat_of_position {x : Binary64} {place : ℤ} (hfinite : x.isFinite = true)
    (h : x.position = some place) : x.toRat = place * unit := by
  cases x with
  | finite negative units =>
    cases negative with
    | false =>
      obtain rfl : (units : ℤ) = place := Option.some.inj h
      rw [toRat, Int.cast_natCast]
    | true =>
      obtain rfl : -(units : ℤ) = place := Option.some.inj h
      rw [toRat, Int.cast_neg, Int.cast_natCast, neg_mul]
  | _ => simp [isFinite] at hfinite

theorem place_mul_unit_le_iff {a b : ℤ} : (a : ℚ) * unit ≤ b * unit ↔ a ≤ b := by
  rw [mul_le_mul_iff_of_pos_right unit_pos, Int.cast_le]

/-- A whole number in units. -/
theorem whole_eq_mul_unit (n : ℤ) : (n : ℚ) = ((n * unitsPerOne : ℤ) : ℚ) * unit := by
  rw [Int.cast_mul, Int.cast_natCast, mul_assoc, unitsPerOne_mul_unit, mul_one]

/-! ## §3 Bounds -/

/-- A bound so small that the whole numbers on both sides of it are doubles. -/
def isSmall : Binary64 → Bool
  | finite _ units => units < Nat.pow 2 52 * unitsPerOne
  | _ => false

theorem exists_position_of_isSmall {bound : Binary64} (h : bound.isSmall = true) :
    ∃ place : ℤ, bound.position = some place ∧ bound.toRat = place * unit ∧
      place.natAbs < Nat.pow 2 52 * unitsPerOne := by
  cases bound with
  | finite negative units =>
    have hunits : units < Nat.pow 2 52 * unitsPerOne := by
      rwa [isSmall, decide_eq_true_iff] at h
    cases negative with
    | false => exact ⟨units, rfl, toRat_of_position rfl rfl, by rwa [Int.natAbs_natCast]⟩
    | true =>
      exact ⟨-units, rfl, toRat_of_position rfl rfl, by rwa [Int.natAbs_neg, Int.natAbs_natCast]⟩
  | _ => cases h

theorem placeOf_whole {whole : ℤ} (h : whole.natAbs ≤ Nat.pow 2 52) :
    placeOf whole = whole * unitsPerOne := by
  have hlimit : Nat.pow 2 52 < exactLimit := by decide
  exact placeOf_of_lt (Nat.lt_of_le_of_lt h hlimit)

/-- A small place lies between two neighbouring whole numbers that are doubles. -/
theorem exists_whole_le {place : ℤ} (h : place.natAbs < Nat.pow 2 52 * unitsPerOne) :
    ∃ whole : ℤ, placeOf whole = whole * unitsPerOne ∧
      placeOf (whole + 1) = (whole + 1) * unitsPerOne ∧
      whole * unitsPerOne ≤ place ∧ place < (whole + 1) * unitsPerOne := by
  have hone : (0 : ℤ) < unitsPerOne := Int.natCast_pos.2 unitsPerOne_pos
  have hlow : -(Nat.pow 2 52 : ℕ) ≤ place / unitsPerOne := by
    rw [Int.le_ediv_iff_mul_le hone, Int.neg_mul, ← Int.natCast_mul]
    omega
  have hhigh : place / unitsPerOne < (Nat.pow 2 52 : ℕ) := by
    rw [Int.ediv_lt_iff_lt_mul hone, ← Int.natCast_mul]
    omega
  refine ⟨place / unitsPerOne, placeOf_whole (by omega), placeOf_whole (by omega), ?_, ?_⟩
  · exact Int.ediv_mul_le place hone.ne'
  · exact Int.lt_ediv_add_one_mul_self place hone

/-- Rounding carries no whole number across a small place. -/
theorem placeOf_le_iff {n place : ℤ} (h : place.natAbs < Nat.pow 2 52 * unitsPerOne) :
    placeOf n ≤ place ↔ n * unitsPerOne ≤ place := by
  have hone : (0 : ℤ) < unitsPerOne := Int.natCast_pos.2 unitsPerOne_pos
  obtain ⟨whole, hwhole, hnext, hbelow, habove⟩ := exists_whole_le h
  constructor
  · intro hn
    refine Int.not_lt.1 fun hlt => ?_
    -- Then `n` is at least the next whole number, which is above the place.
    have hle : whole + 1 ≤ n := (mul_lt_mul_iff_of_pos_right hone).1 (lt_of_le_of_lt hbelow hlt)
    have hmono := placeOf_mono hle
    omega
  · intro hn
    have hle : n < whole + 1 := (mul_lt_mul_iff_of_pos_right hone).1 (lt_of_le_of_lt hn habove)
    have hmono := placeOf_mono (Int.lt_add_one_iff.1 hle)
    omega

theorem placeOf_neg (n : ℤ) : placeOf (-n) = -placeOf n := by
  rcases lt_trichotomy n 0 with hn | rfl | hn
  · rw [placeOf, placeOf, if_pos hn, if_neg (by omega), Int.natAbs_neg, Int.neg_neg]
  · have hzero : placeOf 0 = 0 := by
      rw [placeOf_whole (Nat.zero_le _), Int.zero_mul]
    rw [Int.neg_zero, hzero, Int.neg_zero]
  · rw [placeOf, placeOf, if_pos (by omega), if_neg (by omega), Int.natAbs_neg]

theorem le_placeOf_iff {n place : ℤ} (h : place.natAbs < Nat.pow 2 52 * unitsPerOne) :
    place ≤ placeOf n ↔ place ≤ n * unitsPerOne := by
  have hneg : placeOf (-n) ≤ -place ↔ -n * unitsPerOne ≤ -place :=
    placeOf_le_iff (by rwa [Int.natAbs_neg])
  rwa [placeOf_neg, Int.neg_le_neg_iff, Int.neg_mul, Int.neg_le_neg_iff] at hneg

/-- A small place is below the infinity. -/
theorem lt_overflow {place : ℤ} (h : place.natAbs < Nat.pow 2 52 * unitsPerOne) :
    place.natAbs < overflow := by
  have hlimit : Nat.pow 2 52 ≤ exactLimit := by decide
  have hle : Nat.pow 2 52 * unitsPerOne ≤ exactLimit * unitsPerOne :=
    Nat.mul_le_mul_right unitsPerOne hlimit
  exact Nat.lt_of_lt_of_le h (Nat.le_trans hle exactLimit_mul_le_overflow)

/-! ## §4 Comparisons -/

theorem exists_position {x : Binary64} (h : x.isNan = false) :
    ∃ place, x.position = some place := by
  cases x with
  | nan => cases h
  | infinite negative => cases negative <;> exact ⟨_, rfl⟩
  | finite negative units => cases negative <;> exact ⟨_, rfl⟩

/-- It has no place on the line, so nothing is at most `nan`. -/
theorem le_nan (x : Binary64) : x.le nan = false := by
  unfold le
  cases x.position <;> rfl

theorem nan_le (x : Binary64) : nan.le x = false := rfl

variable {bound : Binary64}

/-- A small bound is compared with a number as what both are. -/
theorem le_toBinary64_iff (hbound : bound.isSmall = true) (n : Number) :
    bound.le n.toBinary64 = true ↔ n.AtLeast bound.toRat := by
  obtain ⟨place, hplace, hrat, hsmall⟩ := exists_position_of_isSmall hbound
  have hoverflow := lt_overflow hsmall
  cases n with
  | int n =>
    rw [Number.toBinary64, le_iff hplace (position_ofInt n), le_placeOf_iff hsmall, Number.AtLeast,
      hrat, whole_eq_mul_unit n, place_mul_unit_le_iff]
  | float x =>
    rw [Number.toBinary64]
    cases x with
    | nan => simp [le_nan, Number.AtLeast]
    | infinite negative =>
      -- An infinity stands beyond every small place.
      cases negative with
      | false => exact (le_iff hplace rfl).trans (iff_of_true (by omega) rfl)
      | true => exact (le_iff hplace rfl).trans (iff_of_false (by omega) Bool.noConfusion)
    | finite negative units =>
      obtain ⟨other, hother⟩ := @exists_position (finite negative units) rfl
      rw [le_iff hplace hother, Number.AtLeast, hrat, toRat_of_position rfl hother,
        place_mul_unit_le_iff]

/-- A number is compared with a small bound as what both are. -/
theorem toBinary64_le_iff (hbound : bound.isSmall = true) (n : Number) :
    n.toBinary64.le bound = true ↔ n.AtMost bound.toRat := by
  obtain ⟨place, hplace, hrat, hsmall⟩ := exists_position_of_isSmall hbound
  have hoverflow := lt_overflow hsmall
  cases n with
  | int n =>
    rw [Number.toBinary64, le_iff (position_ofInt n) hplace, placeOf_le_iff hsmall, Number.AtMost,
      hrat, whole_eq_mul_unit n, place_mul_unit_le_iff]
  | float x =>
    rw [Number.toBinary64]
    cases x with
    | nan => simp [nan_le, Number.AtMost]
    | infinite negative =>
      cases negative with
      | false => exact (le_iff rfl hplace).trans (iff_of_false (by omega) Bool.noConfusion)
      | true => exact (le_iff rfl hplace).trans (iff_of_true (by omega) rfl)
    | finite negative units =>
      obtain ⟨other, hother⟩ := @exists_position (finite negative units) rfl
      rw [le_iff hother hplace, Number.AtMost, hrat, toRat_of_position rfl hother,
        place_mul_unit_le_iff]

/-! ## §5 Whole bounds -/

theorem toRat_ofNat {n : ℕ} (h : n < exactLimit) : (ofNat n).toRat = n := by
  rw [ofNat_of_lt h, toRat, Nat.cast_mul, mul_assoc, unitsPerOne_mul_unit, mul_one]

theorem isSmall_ofNat {n : ℕ} (h : n < Nat.pow 2 52) : (ofNat n).isSmall = true := by
  have hlimit : Nat.pow 2 52 < exactLimit := by decide
  rw [ofNat_of_lt (Nat.lt_trans h hlimit), isSmall, decide_eq_true_iff]
  exact Nat.mul_lt_mul_of_pos_right h unitsPerOne_pos

theorem toRat_zero : zero.toRat = 0 := by
  rw [zero, toRat, Nat.cast_zero, zero_mul]

theorem isSmall_zero : zero.isSmall = true := by decide +kernel

end Binary64

end PanelLayout
