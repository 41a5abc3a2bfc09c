import Mathlib.Algebra.Order.Field.Basic
import Mathlib.Tactic.FieldSimp
import Mathlib.Tactic.Linarith
import Mathlib.Tactic.NormNum
import Mathlib.Tactic.Ring
import PanelLayout.Proofs.Numeric.Exact

/-!
# The double nearest to a number

`IsNearest` says without any rounding which double is nearest to a rational number, in units: of all
numbers with fifty-three significant bits none is nearer, and of two that are equally near it is the
rounder one.  There is at most one, `IsNearest.unique`.

Rounding finds it.  `isNearest_roundUnits` says so for a quotient, and `comesTo_ofDecimal` for a
decimal number: it becomes the nearest double, or an infinity if that is too large.  With
`ComesTo.inRange_iff` it lies in a range just if the nearest double does.
-/

namespace PanelLayout.Binary64

/-! ## §1 Nearest doubles -/

/-- A number of units with fifty-three significant bits, which a double can hold if it is not too
large. -/
def HasPrecision (units : ℤ) : Prop :=
  ∃ (significand : ℤ) (shift : ℕ), significand.natAbs < 2 ^ 53 ∧ units = significand * 2 ^ shift

/-- How far a number lies from a number of units. -/
def distance (q : ℚ) (units : ℤ) : ℚ := |q - units * unit|

/-- The double nearest to a number, in units.  Of two that are equally near it is the one with an
even significand, which is a multiple of a greater power of two than its neighbour. -/
structure IsNearest (q : ℚ) (units : ℤ) : Prop where
  precision : HasPrecision units
  nearest : ∀ other, HasPrecision other → other ≠ units →
    distance q units < distance q other ∨
      (distance q units = distance q other ∧
        ∃ exponent : ℕ, 2 ^ exponent ∣ units ∧ ¬ 2 ^ exponent ∣ other)

variable {q : ℚ} {units other : ℤ}

theorem IsNearest.unique (h : IsNearest q units) (hother : IsNearest q other) : other = units := by
  by_contra hne
  rcases h.nearest other hother.precision hne with hlt | ⟨heq, a, ha, ha'⟩
  · rcases hother.nearest units h.precision (Ne.symm hne) with hlt' | ⟨heq', -⟩
    · exact lt_asymm hlt hlt'
    · exact hlt.ne heq'.symm
  · rcases hother.nearest units h.precision (Ne.symm hne) with hlt' | ⟨-, b, hb, hb'⟩
    · exact hlt'.ne heq.symm
    · -- Neither can be the rounder one of the two.
      rcases le_total a b with hab | hab
      · exact ha' ((pow_dvd_pow 2 hab).trans hb)
      · exact hb' ((pow_dvd_pow 2 hab).trans ha)

theorem HasPrecision.neg (h : HasPrecision units) : HasPrecision (-units) := by
  obtain ⟨significand, shift, hsignificand, rfl⟩ := h
  exact ⟨-significand, shift, by rwa [Int.natAbs_neg], (neg_mul ..).symm⟩

theorem distance_neg (q : ℚ) (units : ℤ) : distance (-q) (-units) = distance q units := by
  rw [distance, distance, Int.cast_neg, neg_mul, ← abs_neg]
  congr 1
  ring

theorem IsNearest.neg (h : IsNearest q units) : IsNearest (-q) (-units) := by
  refine ⟨h.precision.neg, fun other hother hne => ?_⟩
  have hdistance : distance (-q) other = distance q (-other) := by
    rw [← distance_neg, neg_neg]
  have hnearest := h.nearest (-other) hother.neg (fun heq => hne (by rw [← heq, neg_neg]))
  simpa only [hdistance, distance_neg, dvd_neg] using hnearest

/-! ## §2 Rounding a quotient to a whole number -/

variable {num den : ℕ}

/-- The rounded quotient is at most one half away, and an even number if it is exactly that. -/
theorem two_mul_natAbs_sub_roundHalfEven_le (num : ℕ) (hden : 0 < den) :
    2 * ((num : ℤ) - roundHalfEven num den * den).natAbs ≤ den ∧
      (2 * ((num : ℤ) - roundHalfEven num den * den).natAbs = den →
        roundHalfEven num den % 2 = 0) := by
  have hdivision : num / den * den + num % den = num := Nat.div_add_mod' num den
  have hremainder := Nat.mod_lt num hden
  generalize hround : roundHalfEven num den = round
  have hproduct : round * den = num / den * den ∧ 2 * (num % den) ≤ den ∧
        (2 * (num % den) = den → round % 2 = 0) ∨
      round * den = num / den * den + den ∧ den ≤ 2 * (num % den) ∧
        (2 * (num % den) = den → round % 2 = 0) := by
    subst hround
    unfold roundHalfEven
    dsimp only
    split
    · exact .inl ⟨rfl, by omega, by omega⟩
    · split
      · exact .inr ⟨Nat.succ_mul .., by omega, by omega⟩
      · -- A half goes to the even neighbour.
        rcases Nat.mod_two_eq_zero_or_one (num / den) with heven | hodd
        · rw [heven]
          exact .inl ⟨rfl, by omega, fun _ => heven⟩
        · rw [hodd]
          exact .inr ⟨Nat.succ_mul .., by omega, fun _ => by omega⟩
  have hcast : ((round * den : ℕ) : ℤ) = round * den := Int.natCast_mul ..
  rcases hproduct with ⟨hproduct, hhalf, htie⟩ | ⟨hproduct, hhalf, htie⟩ <;>
    exact ⟨by omega, fun _ => htie (by omega)⟩

/-- No other whole number is nearer to the quotient than the rounded one, and none that is as near
is even. -/
theorem roundHalfEven_nearest (hden : 0 < den) {k : ℤ} (hne : k ≠ roundHalfEven num den) :
    ((num : ℤ) - roundHalfEven num den * den).natAbs < ((num : ℤ) - k * den).natAbs ∨
      ((num : ℤ) - roundHalfEven num den * den).natAbs = ((num : ℤ) - k * den).natAbs ∧
        roundHalfEven num den % 2 = 0 ∧ k % 2 = 1 := by
  obtain ⟨hhalf, htie⟩ := two_mul_natAbs_sub_roundHalfEven_le num hden
  generalize roundHalfEven num den = round at *
  have hpos : (0 : ℤ) < den := by exact_mod_cast hden
  -- Neighbours are one `den` away, all others at least two.
  have hproduct : k * den + 2 * den ≤ round * den ∨ (k + 1 = round ∧ k * den + den = round * den) ∨
      (k = round + 1 ∧ k * den = round * den + den) ∨ (round * den : ℤ) + 2 * den ≤ k * den := by
    rcases lt_or_gt_of_ne hne with hlt | hlt
    · rcases eq_or_lt_of_le (Int.add_one_le_of_lt hlt) with heq | hlt
      · refine .inr (.inl ⟨heq, ?_⟩)
        rw [← heq, add_mul, one_mul]
      · refine .inl ?_
        nlinarith
    · rcases eq_or_lt_of_le (Int.add_one_le_of_lt hlt) with heq | hlt
      · refine .inr (.inr (.inl ⟨heq.symm, ?_⟩))
        rw [← heq, add_mul, one_mul]
      · refine .inr (.inr (.inr ?_))
        nlinarith
  generalize (round : ℤ) * den = first at *
  generalize k * (den : ℤ) = second at *
  omega

/-! ## §3 Rounding to a double -/

theorem distance_quotient (hden : 0 < den) (units : ℤ) :
    distance (num / den * unit) units = ((num - units * den : ℤ).natAbs : ℚ) * (unit / den) := by
  have hpos : (0 : ℚ) < den := Nat.cast_pos.2 hden
  have hdifference : (num : ℚ) / den * unit - units * unit =
      ((num - units * den : ℤ) : ℚ) * (unit / den) := by
    push_cast
    field_simp
  rw [distance, hdifference, abs_mul, abs_of_pos (div_pos unit_pos hpos), Nat.cast_natAbs,
    Int.cast_abs]

theorem distance_lt_of_natAbs_lt (hden : 0 < den)
    (h : (num - units * den : ℤ).natAbs < (num - other * den : ℤ).natAbs) :
    distance (num / den * unit) units < distance (num / den * unit) other := by
  have hpos : (0 : ℚ) < unit / den := div_pos unit_pos (Nat.cast_pos.2 hden)
  rw [distance_quotient hden, distance_quotient hden]
  exact mul_lt_mul_of_pos_right (Nat.cast_lt.2 h) hpos

theorem natCast_gap (magnitude : ℕ) : (gap magnitude : ℤ) = 2 ^ gapLog magnitude :=
  Nat.cast_pow 2 (gapLog magnitude)

/-- What is no multiple of the gap at a magnitude lies in a lower binade, so that a multiple of the
gap stands between the two. -/
theorem exists_multiple_between {magnitude : ℕ} (hprecision : HasPrecision other)
    (hgap : ¬ (gap magnitude : ℤ) ∣ other) :
    ∃ k : ℕ, other < k * gap magnitude ∧ k * gap magnitude ≤ magnitude := by
  obtain ⟨significand, shift, hsignificand, rfl⟩ := hprecision
  have hshift : shift < gapLog magnitude := by
    refine Nat.lt_of_not_le fun hle => hgap ?_
    rw [natCast_gap]
    exact Dvd.dvd.mul_left (pow_dvd_pow 2 hle) significand
  have hlog : magnitude.log2 = 52 + gapLog magnitude := by
    simp only [gapLog] at *
    omega
  have hne : magnitude ≠ 0 := by
    rintro rfl
    simp [gapLog] at hshift
  refine ⟨2 ^ 52, ?_, ?_⟩
  · have hpow : (0 : ℤ) < 2 ^ shift := by positivity
    calc significand * 2 ^ shift < 2 ^ 53 * 2 ^ shift :=
          mul_lt_mul_of_pos_right (by omega) hpow
      _ = 2 ^ 52 * 2 ^ (shift + 1) := by ring
      _ ≤ 2 ^ 52 * 2 ^ gapLog magnitude :=
          mul_le_mul_of_nonneg_left (pow_le_pow_right₀ one_le_two hshift) (by positivity)
      _ = ((2 ^ 52 : ℕ) : ℤ) * gap magnitude := by rw [natCast_gap, Nat.cast_pow, Nat.cast_ofNat]
  · have hpow : 2 ^ 52 * gap magnitude = 2 ^ magnitude.log2 := by
      rw [hlog, Nat.pow_add]
      rfl
    rw [hpow]
    exact Nat.log2_self_le hne

/-- The rounded quotient has at most fifty-three significant bits. -/
theorem hasPrecision_roundUnits (hden : 0 < den) : HasPrecision (roundUnits num den) := by
  have hlog : (num / den).log2 < gapLog (num / den) + 53 := by
    simp only [gapLog]
    omega
  have hround : roundHalfEven num (den * gap (num / den)) ≤ 2 ^ 53 := by
    refine roundHalfEven_le (Nat.mul_pos hden (gap_pos _)) ?_
    have hlt : num / den < 2 ^ 53 * gap (num / den) := by
      calc num / den < 2 ^ ((num / den).log2 + 1) := Nat.lt_log2_self
        _ ≤ 2 ^ (53 + gapLog (num / den)) := Nat.pow_le_pow_right Nat.two_pos (by omega)
        _ = 2 ^ 53 * gap (num / den) := Nat.pow_add ..
    calc num ≤ 2 ^ 53 * gap (num / den) * den := Nat.le_of_lt ((Nat.div_lt_iff_lt_mul hden).1 hlt)
      _ = 2 ^ 53 * (den * gap (num / den)) := by ring
  rw [roundUnits_eq]
  rcases Nat.lt_or_eq_of_le hround with hlt | heq
  · refine ⟨roundHalfEven num (den * gap (num / den)), gapLog (num / den), by simpa using hlt, ?_⟩
    rw [Nat.cast_mul, natCast_gap]
  · -- A power of two needs one bit only.
    refine ⟨2 ^ 52, gapLog (num / den) + 1, by decide, ?_⟩
    rw [heq, Nat.cast_mul, natCast_gap]
    push_cast
    ring

/-- The even one of two neighbours is a multiple of a greater power of two. -/
theorem exists_rounder {even odd : ℤ} (heven : even % 2 = 0) (hodd : odd % 2 = 1)
    (magnitude : ℕ) :
    ∃ exponent : ℕ, 2 ^ exponent ∣ even * gap magnitude ∧
      ¬ 2 ^ exponent ∣ odd * (gap magnitude : ℤ) := by
  have hpos : (2 : ℤ) ^ gapLog magnitude ≠ 0 := pow_ne_zero _ two_ne_zero
  refine ⟨gapLog magnitude + 1, ?_, fun hdvd => ?_⟩
  · rw [natCast_gap, pow_succ']
    exact mul_dvd_mul_right (Int.dvd_of_emod_eq_zero heven) _
  · rw [natCast_gap, pow_succ', mul_dvd_mul_iff_right hpos] at hdvd
    omega

/-- **Rounding finds the nearest double.** -/
theorem isNearest_roundUnits (num : ℕ) (hden : 0 < den) :
    IsNearest (num / den * unit) (roundUnits num den) := by
  refine ⟨hasPrecision_roundUnits hden, fun other hother hne => ?_⟩
  have hgap := Nat.mul_pos hden (gap_pos (num / den))
  -- Distances from multiples of the gap are those of whole numbers from a quotient.
  have hscale : ∀ k : ℤ, (num : ℤ) - k * gap (num / den) * den =
      num - k * (den * gap (num / den) : ℕ) := by
    intro k
    rw [Nat.cast_mul]
    ring
  rw [roundUnits_eq, Nat.cast_mul] at hne ⊢
  by_cases hdvd : (gap (num / den) : ℤ) ∣ other
  · obtain ⟨k, rfl⟩ := hdvd
    rw [mul_comm _ k] at hne ⊢
    have hk : k ≠ roundHalfEven num (den * gap (num / den)) := by
      rintro rfl
      exact hne rfl
    rcases roundHalfEven_nearest hgap hk with hlt | ⟨heq, heven, hodd⟩
    · exact .inl (distance_lt_of_natAbs_lt hden (by rwa [hscale, hscale]))
    · refine .inr ⟨?_, exists_rounder (by exact_mod_cast heven) hodd _⟩
      rw [distance_quotient hden, distance_quotient hden, hscale, hscale, heq]
  · -- The multiple of the gap in between is nearer, and the rounded one is as near as that.
    obtain ⟨k, hlt, hle⟩ := exists_multiple_between hother hdvd
    refine .inl (distance_lt_of_natAbs_lt hden ?_)
    have hnearest : (num - roundHalfEven num (den * gap (num / den)) *
        (den * gap (num / den) : ℕ) : ℤ).natAbs ≤
          (num - k * (den * gap (num / den) : ℕ) : ℤ).natAbs := by
      by_cases heq : (k : ℤ) = roundHalfEven num (den * gap (num / den))
      · rw [heq]
      · exact (roundHalfEven_nearest hgap heq).elim Nat.le_of_lt fun h => Nat.le_of_eq h.1
    have hbelow : (k : ℤ) * gap (num / den) * den ≤ num := by
      exact_mod_cast (Nat.le_div_iff_mul_le hden).1 hle
    have habove : other * den < k * gap (num / den) * den :=
      mul_lt_mul_of_pos_right hlt (by exact_mod_cast hden)
    rw [hscale]
    rw [← hscale k] at hnearest
    omega

/-! ## §4 Decimal numbers -/

/-- What a positive or negative number comes to: the nearest double, or an infinity if that is too
large. -/
def ComesTo (q : ℚ) (negative : Bool) (x : Binary64) : Prop :=
  (∃ units : ℕ, IsNearest q units ∧ units < overflow ∧ x = finite negative units) ∨
    (x = infinite negative ∧ ∀ units : ℤ, IsNearest q units → overflow ≤ units)

theorem comesTo_ofRatio (negative : Bool) (num : ℕ) (hden : 0 < den) :
    ComesTo (num / den) negative (ofRatio negative num den) := by
  have hratio : ofRatio negative num den =
      if roundUnits (num * unitsPerOne) den < overflow then
        finite negative (roundUnits (num * unitsPerOne) den)
      else infinite negative := rfl
  have hnearest : IsNearest (num / den) (roundUnits (num * unitsPerOne) den) := by
    have hunits := isNearest_roundUnits (num * unitsPerOne) hden
    rwa [Nat.cast_mul, mul_div_right_comm, mul_assoc, unitsPerOne_mul_unit, mul_one] at hunits
  rw [hratio]
  split
  · rename_i hlt
    exact .inl ⟨_, hnearest, hlt, rfl⟩
  · rename_i hle
    refine .inr ⟨rfl, fun units hunits => ?_⟩
    rw [hnearest.unique hunits]
    exact_mod_cast Nat.not_lt.1 hle

theorem isNearest_zero (hq : 0 ≤ q) (h : 2 * q < unit) : IsNearest q 0 := by
  refine ⟨⟨0, 0, by decide, by simp⟩, fun other _ hne => .inl ?_⟩
  have hzero : distance q 0 = q := by simp [distance, abs_of_nonneg hq]
  rw [hzero, distance, lt_abs]
  -- The other number is at least one unit away from zero.
  rcases lt_or_gt_of_ne hne with hneg | hpos
  · have hle : (other : ℚ) ≤ -1 := by exact_mod_cast Int.le_sub_one_of_lt hneg
    left
    nlinarith [unit_pos]
  · have hle : (1 : ℚ) ≤ other := by exact_mod_cast hpos
    right
    nlinarith [unit_pos]

theorem overflow_pos : 0 < overflow := by decide +kernel

theorem hasPrecision_overflow : HasPrecision overflow := by
  obtain ⟨log, hlog⟩ : ∃ log, overflow = Nat.pow 2 log := ⟨2098, by decide +kernel⟩
  exact ⟨1, log, by decide, by rw [hlog, one_mul]; exact Nat.cast_pow 2 log⟩

/-- Nothing below the infinity is nearest to what lies beyond it. -/
theorem overflow_le_of_isNearest (hq : overflow * unit ≤ q) (h : IsNearest q units) :
    overflow ≤ units := by
  by_contra hlt
  have hlt : units < (overflow : ℤ) := not_le.1 hlt
  have hcloser : distance q overflow < distance q units := by
    have hunits : (units : ℚ) * unit < overflow * unit :=
      mul_lt_mul_of_pos_right (by exact_mod_cast hlt) unit_pos
    rw [distance, distance, Int.cast_natCast, abs_of_nonneg (by linarith),
      abs_of_nonneg (by linarith)]
    linarith
  rcases h.nearest overflow hasPrecision_overflow hlt.ne' with hnearer | ⟨heq, -⟩
  · exact lt_asymm hcloser hnearer
  · exact hcloser.ne heq.symm

theorem lt_ten_pow_digitCount {digits : ℕ} (h : digits ≠ 0) : digits < 10 ^ digitCount digits := by
  rw [digitCount, if_neg h, ← Nat.length_toDigits_le_iff (by decide) Nat.length_toDigits_pos]

theorem ten_pow_digitCount_le {digits : ℕ} (h : digits ≠ 0) :
    10 ^ digitCount digits ≤ 10 * digits := by
  rw [digitCount, if_neg h]
  generalize hlength : (Nat.toDigits 10 digits).length = length
  cases length with
  | zero => exact Nat.le_trans (by simp) (Nat.le_mul_of_pos_right 10 (Nat.pos_of_ne_zero h))
  | succ shorter =>
    cases shorter with
    | zero =>
      have hpos : 0 < digits := Nat.pos_of_ne_zero h
      omega
    | succ shorter =>
      have hnot : ¬ digits < 10 ^ (shorter + 1) := by
        rw [← Nat.length_toDigits_le_iff (by decide) (Nat.succ_pos _)]
        omega
      rw [Nat.pow_succ]
      omega

theorem natCast_mul_zpow_lt {digits : ℕ} (h : digits ≠ 0) (exponent : ℤ) :
    (digits : ℚ) * 10 ^ exponent < 10 ^ (digitCount digits + exponent) := by
  rw [zpow_add₀ (by norm_num), zpow_natCast]
  exact mul_lt_mul_of_pos_right (by exact_mod_cast lt_ten_pow_digitCount h)
    (zpow_pos (by norm_num) exponent)

theorem zpow_le_natCast_mul {digits : ℕ} (h : digits ≠ 0) (exponent : ℤ) :
    (10 : ℚ) ^ (digitCount digits + exponent) ≤ 10 * (digits * 10 ^ exponent) := by
  rw [zpow_add₀ (by norm_num), zpow_natCast, ← mul_assoc]
  exact mul_le_mul_of_nonneg_right (by exact_mod_cast ten_pow_digitCount_le h)
    (zpow_pos (by norm_num) exponent).le

/-- Half a unit is more than what is certain to vanish. -/
theorem two_mul_zpow_lt_unit (places : ℕ) (h : 2 * unitsPerOne < 10 ^ places) :
    2 * (10 : ℚ) ^ (-(places : ℤ)) < unit := by
  have hone : (0 : ℚ) < unitsPerOne := Nat.cast_pos.2 unitsPerOne_pos
  have hten : (0 : ℚ) < 10 ^ places := pow_pos (by norm_num) places
  have hunit : unit = 1 / unitsPerOne := eq_one_div_of_mul_eq_one_right unitsPerOne_mul_unit
  rw [hunit, zpow_neg, zpow_natCast, ← div_eq_mul_inv, div_lt_div_iff₀ hten hone, one_mul]
  exact_mod_cast h

theorem overflow_mul_unit_le (places : ℕ) (h : overflow ≤ 10 ^ places * unitsPerOne) :
    overflow * unit ≤ 10 ^ places := by
  have hcast : (overflow : ℚ) ≤ 10 ^ places * unitsPerOne := by exact_mod_cast h
  calc overflow * unit ≤ 10 ^ places * unitsPerOne * unit :=
        mul_le_mul_of_nonneg_right hcast unit_pos.le
    _ = 10 ^ places := by rw [mul_assoc, unitsPerOne_mul_unit, mul_one]

/-- **A decimal number becomes the nearest double**, or an infinity. -/
theorem comesTo_ofDecimal (negative : Bool) (digits : ℕ) (exponent : ℤ) :
    ComesTo (digits * 10 ^ exponent) negative (ofDecimal negative digits exponent) := by
  rw [ofDecimal]
  split
  · rename_i hsmall
    by_cases hdigits : digits = 0
    · rw [hdigits, Nat.cast_zero, zero_mul]
      exact .inl ⟨0, isNearest_zero le_rfl (by simpa using unit_pos), overflow_pos, rfl⟩
    · have hmagnitude := hsmall.resolve_left hdigits
      have hten : (0 : ℚ) < 10 ^ exponent := zpow_pos (by norm_num) exponent
      have hunit := two_mul_zpow_lt_unit 331 (by decide +kernel)
      have hle : (10 : ℚ) ^ (digitCount digits + exponent) ≤ 10 ^ (-(331 : ℕ) : ℤ) :=
        zpow_le_zpow_right₀ (by norm_num) (by omega)
      have hlt := natCast_mul_zpow_lt hdigits exponent
      refine .inl ⟨0, isNearest_zero (by positivity) (by linarith), overflow_pos, rfl⟩
  · rename_i hsmall
    obtain ⟨hdigits, -⟩ := not_or.1 hsmall
    split
    · rename_i hlarge
      have hoverflow := overflow_mul_unit_le 310 (by decide +kernel)
      have hle : (10 : ℚ) ^ 311 ≤ 10 ^ (digitCount digits + exponent) := by
        rw [← zpow_natCast]
        exact zpow_le_zpow_right₀ (by norm_num) (by omega)
      have hdecimal := zpow_le_natCast_mul hdigits exponent
      refine .inr ⟨rfl, fun units => overflow_le_of_isNearest ?_⟩
      rw [pow_succ] at hle
      generalize (10 : ℚ) ^ 310 = huge at *
      linarith
    · split
      · rename_i hexponent
        have hratio := comesTo_ofRatio negative (digits * Nat.pow 10 exponent.toNat) Nat.one_pos
        have hpow : (digits : ℚ) * 10 ^ exponent =
            (digits * Nat.pow 10 exponent.toNat : ℕ) / (1 : ℕ) := by
          have hcast : ((Nat.pow 10 exponent.toNat : ℕ) : ℚ) = 10 ^ exponent.toNat :=
            Nat.cast_pow 10 exponent.toNat
          rw [Nat.cast_mul, hcast, Nat.cast_one, div_one, ← zpow_natCast,
            Int.toNat_of_nonneg hexponent]
        rwa [hpow]
      · rename_i hexponent
        have hpos : 0 < Nat.pow 10 (-exponent).toNat := Nat.pow_pos (by decide)
        have hratio := comesTo_ofRatio negative digits hpos
        have hpow : (digits : ℚ) * 10 ^ exponent = digits / (Nat.pow 10 (-exponent).toNat : ℕ) := by
          have hcast : ((Nat.pow 10 (-exponent).toNat : ℕ) : ℚ) = 10 ^ (-exponent).toNat :=
            Nat.cast_pow 10 (-exponent).toNat
          rw [hcast, ← zpow_natCast, Int.toNat_of_nonneg (by omega), zpow_neg, div_inv_eq_mul]
        rwa [hpow]

/-! ## §5 Ranges -/

variable {negative : Bool} {x min max : Binary64}

/-- What a number comes to lies between two small bounds just if the nearest double does. -/
theorem ComesTo.inRange_iff (h : ComesTo q negative x) (hmin : min.isSmall = true)
    (hmax : max.isSmall = true) :
    (x.isFinite = true ∧ min.le x = true ∧ x.le max = true) ↔
      ∃ units, IsNearest (if negative then -q else q) units ∧ min.toRat ≤ units * unit ∧
        units * unit ≤ max.toRat := by
  have hlow : min.le x = true ↔ (Number.float x).AtLeast min.toRat :=
    le_toBinary64_iff hmin (.float x)
  have hhigh : x.le max = true ↔ (Number.float x).AtMost max.toRat :=
    toBinary64_le_iff hmax (.float x)
  rcases h with ⟨magnitude, hnearest, -, rfl⟩ | ⟨rfl, hinfinite⟩
  · obtain ⟨units, hunits, hrat⟩ : ∃ units : ℤ, IsNearest (if negative then -q else q) units ∧
        (finite negative magnitude).toRat = units * unit := by
      cases negative with
      | false => exact ⟨magnitude, hnearest, by rw [toRat, Int.cast_natCast]⟩
      | true =>
        exact ⟨-magnitude, hnearest.neg, by rw [toRat, Int.cast_neg, Int.cast_natCast, neg_mul]⟩
    rw [hlow, hhigh, Number.AtLeast, Number.AtMost, hrat]
    constructor
    · rintro ⟨-, hmin, hmax⟩
      exact ⟨units, hunits, hmin, hmax⟩
    · rintro ⟨other, hother, hmin, hmax⟩
      rw [hunits.unique hother] at hmin hmax
      exact ⟨rfl, hmin, hmax⟩
  · -- The nearest double lies beyond both bounds.
    refine iff_of_false (fun h => Bool.noConfusion h.1) ?_
    rintro ⟨units, hunits, hlow, hhigh⟩
    obtain ⟨place, -, hrat, hsmall⟩ := exists_position_of_isSmall hmin
    obtain ⟨place', -, hrat', hsmall'⟩ := exists_position_of_isSmall hmax
    rw [hrat, place_mul_unit_le_iff] at hlow
    rw [hrat', place_mul_unit_le_iff] at hhigh
    have hoverflow := lt_overflow hsmall
    have hoverflow' := lt_overflow hsmall'
    cases negative with
    | false =>
      have hle := hinfinite units hunits
      omega
    | true =>
      have hneg : IsNearest q (-units) := by simpa using hunits.neg
      have hle := hinfinite (-units) hneg
      omega

end PanelLayout.Binary64
