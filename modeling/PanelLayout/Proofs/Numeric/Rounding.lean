import PanelLayout.Numeric.Binary64

/-!
# Rounding keeps the order of whole numbers

A whole number that goes through a double may come out as another one: beyond `2⁵³` only some whole
numbers are doubles.  But rounding never carries a number across a double.

* `roundUnits_mono` says that rounding keeps the order, and `roundUnits_of_dvd` that it leaves what
  a double can hold.
* `placeOf` is where a whole number comes to stand on the line.  It keeps the order
  (`placeOf_mono`), and a small whole number stands where it is (`placeOf_of_lt`).
-/

namespace PanelLayout.Binary64

variable {a b num den units whole : Nat}

/-! ## §1 Rounding a quotient to a whole number -/

theorem le_roundHalfEven (hden : 0 < den) (h : whole * den ≤ num) :
    whole ≤ roundHalfEven num den := by
  have hquotient : whole ≤ num / den := (Nat.le_div_iff_mul_le hden).2 h
  dsimp only [roundHalfEven]
  split
  · exact hquotient
  · split <;> omega

theorem roundHalfEven_le (hden : 0 < den) (h : num ≤ whole * den) :
    roundHalfEven num den ≤ whole := by
  have hquotient : num / den ≤ whole := Nat.div_le_of_le_mul (by rwa [Nat.mul_comm])
  -- A quotient that is `whole` leaves no remainder, so that it is not rounded up.
  have hremainder : num / den = whole → num % den = 0 := by
    intro heq
    have hdivision := Nat.div_add_mod' num den
    rw [heq] at hdivision
    omega
  dsimp only [roundHalfEven]
  split
  · exact hquotient
  · split <;> omega

theorem roundHalfEven_mono (hden : 0 < den) (h : a ≤ b) :
    roundHalfEven a den ≤ roundHalfEven b den := by
  rcases Nat.lt_or_eq_of_le (Nat.div_le_div_right h : a / den ≤ b / den) with hlt | heq
  · -- A whole number lies between the two quotients.
    have hbelow : roundHalfEven a den ≤ a / den + 1 :=
      roundHalfEven_le hden (Nat.le_of_lt (Nat.lt_mul_of_div_lt (Nat.lt_succ_self _) hden))
    have habove : b / den ≤ roundHalfEven b den :=
      le_roundHalfEven hden (Nat.div_mul_le_self b den)
    exact Nat.le_trans hbelow (Nat.le_trans hlt habove)
  · -- The quotients have one whole part, and the remainders are in order.
    have hremainder : a % den ≤ b % den := by
      have ha := Nat.div_add_mod' a den
      have hb := Nat.div_add_mod' b den
      rw [heq] at ha
      omega
    dsimp only [roundHalfEven]
    rw [heq]
    repeat' split
    all_goals omega

/-! ## §2 Rounding to a double -/

/-- The gap between neighbouring doubles at a magnitude, in units. -/
def gap (units : Nat) : Nat := Nat.pow 2 (gapLog units)

theorem gap_pos (units : Nat) : 0 < gap units := Nat.pow_pos Nat.two_pos

theorem roundUnits_eq (num den : Nat) :
    roundUnits num den = roundHalfEven num (den * gap (num / den)) * gap (num / den) := rfl

/-- What a double can hold is not above the rounded number if it was not above the number. -/
theorem le_roundUnits (hden : 0 < den) (hgap : gap (num / den) ∣ units) (h : units * den ≤ num) :
    units ≤ roundUnits num den := by
  obtain ⟨count, rfl⟩ := hgap
  rw [roundUnits_eq, Nat.mul_comm]
  refine Nat.mul_le_mul_right _ (le_roundHalfEven (Nat.mul_pos hden (gap_pos _)) ?_)
  calc count * (den * gap (num / den)) = gap (num / den) * count * den := by
        rw [Nat.mul_comm den, ← Nat.mul_assoc, Nat.mul_comm count]
    _ ≤ num := h

theorem roundUnits_le (hden : 0 < den) (hgap : gap (num / den) ∣ units) (h : num ≤ units * den) :
    roundUnits num den ≤ units := by
  obtain ⟨count, rfl⟩ := hgap
  rw [roundUnits_eq, Nat.mul_comm (gap _)]
  refine Nat.mul_le_mul_right _ (roundHalfEven_le (Nat.mul_pos hden (gap_pos _)) ?_)
  calc num ≤ gap (num / den) * count * den := h
    _ = count * (den * gap (num / den)) := by
        rw [Nat.mul_comm den, ← Nat.mul_assoc, Nat.mul_comm count]

theorem gap_dvd_two_pow {log : Nat} (h : gapLog units ≤ log) : gap units ∣ Nat.pow 2 log :=
  Nat.pow_dvd_pow 2 h

theorem log2_le_log2 (h : a ≤ b) : a.log2 ≤ b.log2 := by
  by_cases ha : a = 0
  · rw [ha, Nat.log2_zero]
    exact Nat.zero_le _
  · have hb : b ≠ 0 := fun hb => ha (Nat.le_zero.1 (hb ▸ h))
    exact (Nat.le_log2 hb).2 (Nat.le_trans (Nat.log2_self_le ha) h)

/-- Rounding keeps the order. -/
theorem roundUnits_mono (hden : 0 < den) (h : a ≤ b) : roundUnits a den ≤ roundUnits b den := by
  have hquotient : a / den ≤ b / den := Nat.div_le_div_right h
  by_cases hlog : gapLog (a / den) = gapLog (b / den)
  · have hgap : gap (a / den) = gap (b / den) := congrArg (Nat.pow 2) hlog
    rw [roundUnits_eq, roundUnits_eq, hgap]
    exact Nat.mul_le_mul_right _ (roundHalfEven_mono (Nat.mul_pos hden (gap_pos _)) h)
  · -- Where the gaps differ, the greatest power of two up to the larger number is a double between.
    have hlogs := log2_le_log2 hquotient
    simp only [gapLog] at hlog
    have hlt : (a / den).log2 < (b / den).log2 := by omega
    have hne : b / den ≠ 0 := fun hzero => by simp [hzero] at hlt
    have hbelow : a / den < Nat.pow 2 (b / den).log2 :=
      Nat.lt_of_lt_of_le Nat.lt_log2_self (Nat.pow_le_pow_right Nat.two_pos hlt)
    have habove : Nat.pow 2 (b / den).log2 ≤ b / den := Nat.log2_self_le hne
    have hgap : ∀ {units}, units.log2 ≤ (b / den).log2 →
        gap units ∣ Nat.pow 2 (b / den).log2 := fun hunits =>
      gap_dvd_two_pow (Nat.le_trans (Nat.sub_le ..) hunits)
    have hround : roundUnits a den ≤ Nat.pow 2 (b / den).log2 :=
      roundUnits_le hden (hgap hlogs) (Nat.le_of_lt ((Nat.div_lt_iff_lt_mul hden).1 hbelow))
    exact Nat.le_trans hround
      (le_roundUnits hden (hgap (Nat.le_refl _)) ((Nat.le_div_iff_mul_le hden).1 habove))

/-- What a double can hold is left as it is. -/
theorem roundUnits_of_dvd (h : gap units ∣ units) : roundUnits units 1 = units := by
  rw [← Nat.div_one units] at h
  have h' : gap (units / 1) ∣ units := by simpa using h
  exact Nat.le_antisymm (roundUnits_le Nat.one_pos h' (by simp))
    (le_roundUnits Nat.one_pos h' (by simp))

/-! ## §3 Whole numbers -/

/-- Whole numbers below this one, whatever their sign, are doubles. -/
def exactLimit : Nat := Nat.pow 2 53

/-- Where a natural number stands on the line once it is rounded. -/
def magnitude (n : Nat) : Nat := min (roundUnits (n * unitsPerOne) 1) overflow

/-- Where an integer stands on the line once it is rounded. -/
def placeOf (n : Int) : Int := if n < 0 then -(magnitude n.natAbs : Int) else magnitude n.natAbs

theorem position_ofInt (n : Int) : (ofInt n).position = some (placeOf n) := by
  have hround : ∀ negative, ofRatio negative n.natAbs 1 =
      if roundUnits (n.natAbs * unitsPerOne) 1 < overflow then
        finite negative (roundUnits (n.natAbs * unitsPerOne) 1)
      else infinite negative := fun _ => rfl
  rw [ofInt, hround, placeOf, magnitude]
  by_cases hsign : n < 0
  · rw [decide_eq_true hsign, if_pos hsign]
    split
    · rename_i hlt
      rw [Nat.min_eq_left (Nat.le_of_lt hlt)]
      rfl
    · rename_i hle
      rw [Nat.min_eq_right (Nat.not_lt.1 hle)]
      rfl
  · rw [decide_eq_false hsign, if_neg hsign]
    split
    · rename_i hlt
      rw [Nat.min_eq_left (Nat.le_of_lt hlt)]
      rfl
    · rename_i hle
      rw [Nat.min_eq_right (Nat.not_lt.1 hle)]
      rfl

theorem magnitude_mono (h : a ≤ b) : magnitude a ≤ magnitude b := by
  have hround := roundUnits_mono Nat.one_pos (Nat.mul_le_mul_right unitsPerOne h)
  exact Nat.le_min.2 ⟨Nat.le_trans (Nat.min_le_left ..) hround, Nat.min_le_right ..⟩

theorem unitsPerOne_pos : 0 < unitsPerOne := by decide +kernel

theorem exists_unitsPerOne_eq : ∃ log, unitsPerOne = Nat.pow 2 log := ⟨1074, by decide +kernel⟩

theorem exactLimit_mul_le_overflow : exactLimit * unitsPerOne ≤ overflow := by decide +kernel

/-- Fifty-three bits are kept, so that below the limit the gap is one at most. -/
theorem gap_dvd_of_lt {log : Nat} (hwhole : whole = Nat.pow 2 log)
    (h : units < exactLimit * whole) : gap units ∣ whole := by
  subst hwhole
  refine gap_dvd_two_pow ?_
  by_cases hzero : units = 0
  · rw [hzero]
    exact Nat.zero_le log
  · have hlt : units < Nat.pow 2 (53 + log) := by rwa [Nat.pow_eq, Nat.pow_add]
    have hlog : units.log2 < 53 + log := (Nat.log2_lt hzero).2 hlt
    simp only [gapLog]
    omega

/-- A number below the limit is rounded to itself. -/
theorem roundUnits_of_lt {n : Nat} (h : n < exactLimit) :
    roundUnits (n * unitsPerOne) 1 = n * unitsPerOne := by
  have hlt : n * unitsPerOne < exactLimit * unitsPerOne :=
    Nat.mul_lt_mul_of_pos_right h unitsPerOne_pos
  obtain ⟨log, hlog⟩ := exists_unitsPerOne_eq
  exact roundUnits_of_dvd (Nat.dvd_mul_left_of_dvd (gap_dvd_of_lt hlog hlt) n)

theorem mul_unitsPerOne_lt_overflow {n : Nat} (h : n < exactLimit) :
    n * unitsPerOne < overflow :=
  Nat.lt_of_lt_of_le (Nat.mul_lt_mul_of_pos_right h unitsPerOne_pos) exactLimit_mul_le_overflow

/-- A number below the limit is the double that it is rounded to. -/
theorem ofNat_of_lt {n : Nat} (h : n < exactLimit) : ofNat n = finite false (n * unitsPerOne) := by
  have hratio : ofNat n =
      if roundUnits (n * unitsPerOne) 1 < overflow then
        finite false (roundUnits (n * unitsPerOne) 1)
      else infinite false := rfl
  rw [hratio, roundUnits_of_lt h, if_pos (mul_unitsPerOne_lt_overflow h)]

/-- A number below the limit keeps its place. -/
theorem magnitude_of_lt {n : Nat} (h : n < exactLimit) : magnitude n = n * unitsPerOne := by
  rw [magnitude, roundUnits_of_lt h, Nat.min_eq_left (Nat.le_of_lt (mul_unitsPerOne_lt_overflow h))]

theorem placeOf_mono {n m : Int} (h : n ≤ m) : placeOf n ≤ placeOf m := by
  unfold placeOf
  split
  · rename_i hn
    split
    · have hle : magnitude m.natAbs ≤ magnitude n.natAbs := magnitude_mono (by omega)
      omega
    · omega
  · rename_i hn
    have hle : magnitude n.natAbs ≤ magnitude m.natAbs := magnitude_mono (by omega)
    rw [if_neg (by omega)]
    omega

theorem placeOf_of_lt {n : Int} (h : n.natAbs < exactLimit) : placeOf n = n * unitsPerOne := by
  rw [placeOf, magnitude_of_lt h, Int.natCast_mul]
  split
  · rename_i hn
    rw [Int.ofNat_natAbs_of_nonpos (Int.le_of_lt hn), Int.neg_mul, Int.neg_neg]
  · rename_i hn
    rw [Int.natAbs_of_nonneg (Int.not_lt.1 hn)]

theorem le_iff {x y : Binary64} {i j : Int} (hx : x.position = some i) (hy : y.position = some j) :
    x.le y = true ↔ i ≤ j := by
  rw [le, hx, hy]
  exact decide_eq_true_iff

end PanelLayout.Binary64
