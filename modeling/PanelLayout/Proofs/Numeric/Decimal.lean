import Mathlib.Data.List.TakeWhile
import Mathlib.Data.Nat.Digits.Defs
import PanelLayout.Numeric.Literal
import PanelLayout.Proofs.Numeric.Nearest

/-!
# Decimal literals

`Spells` says how a decimal literal is written, and which rational number it means: a sign, digits
with an optional point, and an optional exponent.  The reader plays no part in it.

* `natural?_eq_some_iff`, `exponent?_eq_some_iff` and `digits?_eq_some_iff` say that each part of
  the reader accepts what is written like this.
* `ofLiteral?_eq_finite_iff` says that a text is read as a finite double just if it is such a
  literal, and not too large.

`exists_inRange_iff` puts this together with rounding: a text is read as a double in a range just if
it spells a number whose nearest double lies there.
-/

namespace PanelLayout.Literal

/-! ## §1 How a number is written -/

/-- A decimal digit. -/
def IsDigit (c : Char) : Prop := '0' ≤ c ∧ c ≤ '9'

instance (c : Char) : Decidable (IsDigit c) := inferInstanceAs (Decidable (_ ∧ _))

/-- The number that decimal digits write. -/
def digitsValue (digits : List Char) : ℕ := Nat.ofDigits 10 (digits.reverse.map (·.toNat - 48))

/-- How a sign is written, and whether it is a minus. -/
inductive Sign : List Char → Bool → Prop where
  | absent : Sign [] false
  | plus : Sign ['+'] false
  | minus : Sign ['-'] true

/-- The digits before and behind a point, which may be left out if no digits follow it.  There must
be a digit at least. -/
inductive Mantissa : List Char → List Char → List Char → Prop where
  | plain {whole : List Char} (hne : whole ≠ []) : Mantissa whole whole []
  | pointed {whole fraction : List Char} (hne : whole ++ fraction ≠ []) :
      Mantissa (whole ++ '.' :: fraction) whole fraction

/-- An exponent, which may be left out. -/
inductive Exponent : List Char → ℤ → Prop where
  | absent : Exponent [] 0
  | present {mark : Char} {sign digits : List Char} {negative : Bool}
      (hmark : mark = 'e' ∨ mark = 'E') (hsign : Sign sign negative) (hne : digits ≠ [])
      (hdigits : ∀ c ∈ digits, IsDigit c) :
      Exponent (mark :: (sign ++ digits))
        (if negative then -(digitsValue digits : ℤ) else digitsValue digits)

/-- A decimal literal without its sign: the number that its digits write, and its exponent. -/
inductive Unsigned : List Char → ℕ → ℤ → Prop where
  | mk {mantissa exponent whole fraction : List Char} {e : ℤ}
      (hmantissa : Mantissa mantissa whole fraction)
      (hdigits : ∀ c ∈ whole ++ fraction, IsDigit c) (hexponent : Exponent exponent e) :
      Unsigned (mantissa ++ exponent) (digitsValue (whole ++ fraction)) (e - fraction.length)

/-- A decimal literal, and the number that it means. -/
inductive Spells : List Char → ℚ → Prop where
  | mk {sign literal : List Char} {negative : Bool} {digits : ℕ} {exponent : ℤ}
      (hsign : Sign sign negative) (hliteral : Unsigned literal digits exponent) :
      Spells (sign ++ literal)
        (if negative then -(digits * 10 ^ exponent : ℚ) else digits * 10 ^ exponent)

/-! ## §2 Digits -/

theorem isDecimal_iff {c : Char} : isDecimal c = true ↔ IsDigit c := by
  rw [isDecimal, Bool.and_eq_true, decide_eq_true_iff, decide_eq_true_iff, IsDigit]

/-- Only decimal digits have values below ten. -/
theorem naturalFrom?_cons (value : ℕ) (c : Char) (rest : List Char) :
    naturalFrom? 10 value (c :: rest) =
      if isDecimal c then naturalFrom? 10 (value * 10 + (c.toNat - 48)) rest else none := by
  have hzero : '0'.toNat = 48 := rfl
  have hnine : '9'.toNat = 57 := rfl
  by_cases hdigit : '0' ≤ c ∧ c ≤ '9'
  · have hvalue : digit? c = some (c.toNat - 48) := by rw [digit?, if_pos hdigit, hzero]
    have hle : c.toNat ≤ '9'.toNat := hdigit.2
    have hlt : c.toNat - 48 < 10 := by omega
    rw [naturalFrom?, hvalue]
    simp only [if_pos hlt, if_pos (isDecimal_iff.2 hdigit)]
  · -- A letter is worth ten at least.
    have hvalue : ∀ d, digit? c = some d → ¬ d < 10 := by
      intro d hd
      rw [digit?, if_neg hdigit] at hd
      split at hd
      · cases hd
        omega
      · split at hd
        · cases hd
          omega
        · cases hd
    rw [naturalFrom?, if_neg (mt isDecimal_iff.1 hdigit)]
    split
    · rename_i d hd
      rw [if_neg (hvalue d hd)]
    · rfl

theorem digitsValue_nil : digitsValue [] = 0 := rfl

theorem digitsValue_cons (c : Char) (rest : List Char) :
    digitsValue (c :: rest) = (c.toNat - 48) * 10 ^ rest.length + digitsValue rest := by
  rw [digitsValue, List.reverse_cons, List.map_append, Nat.ofDigits_append, List.length_map,
    List.length_reverse, List.map_cons, List.map_nil, Nat.ofDigits_singleton, digitsValue]
  ring

theorem naturalFrom?_eq_some_iff {value n : ℕ} {cs : List Char} :
    naturalFrom? 10 value cs = some n ↔
      (∀ c ∈ cs, IsDigit c) ∧ n = value * 10 ^ cs.length + digitsValue cs := by
  -- The value of what was read before changes from character to character.
  induction cs generalizing value with
  | nil => simp [naturalFrom?, digitsValue_nil, eq_comm]
  | cons c rest ih =>
    rw [naturalFrom?_cons, List.forall_mem_cons, ← isDecimal_iff]
    cases isDecimal c with
    | false => simp
    | true =>
      rw [if_pos rfl, ih, digitsValue_cons, List.length_cons]
      have hvalue : (value * 10 + (c.toNat - 48)) * 10 ^ rest.length + digitsValue rest =
          value * 10 ^ (rest.length + 1) +
            ((c.toNat - 48) * 10 ^ rest.length + digitsValue rest) := by ring
      rw [hvalue]
      simp

theorem natural?_eq_some_iff {n : ℕ} {cs : List Char} :
    natural? 10 cs = some n ↔ cs ≠ [] ∧ (∀ c ∈ cs, IsDigit c) ∧ n = digitsValue cs := by
  rw [natural?]
  cases cs with
  | nil => simp
  | cons c rest => simp [naturalFrom?_eq_some_iff]

theorem runValue_eq {cs : List Char} (h : ∀ c ∈ cs, IsDigit c) : runValue cs = digitsValue cs := by
  have hvalue : naturalFrom? 10 0 cs = some (digitsValue cs) :=
    naturalFrom?_eq_some_iff.2 ⟨h, by rw [Nat.zero_mul, Nat.zero_add]⟩
  rw [runValue, hvalue, Option.getD_some]

/-! ## §3 Parts of a literal -/

/-- Nothing is split off a text that does not begin with a sign. -/
theorem splitSign_of_ne {cs : List Char} (h : ∀ c rest, cs = c :: rest → c ≠ '+' ∧ c ≠ '-') :
    splitSign cs = (false, cs) := by
  unfold splitSign
  split
  · exact absurd rfl (h _ _ rfl).2
  · exact absurd rfl (h _ _ rfl).1
  · rfl

theorem splitSign_of_sign {sign cs : List Char} {negative : Bool} (hsign : Sign sign negative)
    (h : ∀ c rest, cs = c :: rest → c ≠ '+' ∧ c ≠ '-') :
    splitSign (sign ++ cs) = (negative, cs) := by
  cases hsign with
  | absent => exact splitSign_of_ne h
  | plus => rfl
  | minus => rfl

theorem sign_splitSign (cs : List Char) :
    ∃ sign, Sign sign (splitSign cs).1 ∧ cs = sign ++ (splitSign cs).2 := by
  unfold splitSign
  split
  · exact ⟨['-'], .minus, rfl⟩
  · exact ⟨['+'], .plus, rfl⟩
  · exact ⟨[], .absent, rfl⟩

theorem IsDigit.ne_sign {c : Char} (h : IsDigit c) : c ≠ '+' ∧ c ≠ '-' := by
  constructor <;> rintro rfl <;> revert h <;> decide

theorem exponent?_cons (mark : Char) (rest : List Char) :
    exponent? (mark :: rest) =
      if mark = 'e' ∨ mark = 'E' then
        (natural? 10 (splitSign rest).2).map fun n : ℕ =>
          if (splitSign rest).1 then -(n : ℤ) else n
      else none := by
  rw [exponent?]
  obtain ⟨negative, digits⟩ := splitSign rest
  dsimp only
  cases natural? 10 digits <;> rfl

theorem exponent?_eq_some_iff {cs : List Char} {e : ℤ} :
    exponent? cs = some e ↔ Exponent cs e := by
  constructor
  · intro h
    cases cs with
    | nil =>
      obtain rfl : (0 : ℤ) = e := Option.some.inj h
      exact .absent
    | cons mark rest =>
      rw [exponent?_cons] at h
      split at h
      · rename_i hmark
        obtain ⟨sign, hsign, hrest⟩ := sign_splitSign rest
        obtain ⟨n, hn, rfl⟩ := Option.map_eq_some_iff.1 h
        obtain ⟨hne, hdigits, rfl⟩ := natural?_eq_some_iff.1 hn
        -- The text is put together again from its sign and its digits.
        generalize splitSign rest = parts at *
        subst hrest
        exact .present hmark hsign hne hdigits
      · cases h
  · rintro (_ | ⟨hmark, hsign, hne, hdigits⟩)
    · rfl
    · rename_i sign digits negative
      have hsplit : splitSign (sign ++ digits) = (negative, digits) :=
        splitSign_of_sign hsign fun c rest heq => (hdigits c (heq ▸ List.mem_cons_self)).ne_sign
      rw [exponent?_cons, if_pos hmark, hsplit, natural?_eq_some_iff.2 ⟨hne, hdigits, rfl⟩]
      rfl

/-- Digits end where an exponent or a point begins. -/
theorem takeWhile_dropWhile_of_digits {digits rest : List Char} (hdigits : ∀ c ∈ digits, IsDigit c)
    (hrest : ∀ c tail, rest = c :: tail → ¬ IsDigit c) :
    (digits ++ rest).takeWhile isDecimal = digits ∧
      (digits ++ rest).dropWhile isDecimal = rest := by
  have hall : ∀ c ∈ digits, isDecimal c = true := fun c hc => isDecimal_iff.2 (hdigits c hc)
  rw [List.takeWhile_append_of_pos hall, List.dropWhile_append_of_pos hall]
  cases rest with
  | nil => simp
  | cons c tail =>
    have hc : ¬ isDecimal c = true := mt isDecimal_iff.1 (hrest c tail rfl)
    rw [List.takeWhile_cons_of_neg hc, List.dropWhile_cons_of_neg hc, List.append_nil]
    exact ⟨rfl, rfl⟩

/-- An exponent begins with no digit and no point. -/
theorem Exponent.head_ne {exponent tail : List Char} {e : ℤ} {c : Char} (h : Exponent exponent e)
    (heq : exponent = c :: tail) : ¬ IsDigit c ∧ c ≠ '.' := by
  cases h with
  | absent => cases heq
  | present hmark =>
    cases heq
    rcases hmark with rfl | rfl <;> decide

/-! ## §4 The digits of a literal -/

/-- What stands behind the digits before the point: the digits behind it, and the rest. -/
theorem mantissa_splitFraction (whole cs : List Char) (hdigits : ∀ c ∈ whole, IsDigit c)
    (hne : ¬ (whole.isEmpty && (splitFraction cs).1.isEmpty) = true) :
    ∃ mantissa, Mantissa mantissa whole (splitFraction cs).1 ∧
      (∀ c ∈ whole ++ (splitFraction cs).1, IsDigit c) ∧
      whole ++ cs = mantissa ++ (splitFraction cs).2 := by
  unfold splitFraction at *
  split at hne
  · rename_i rest
    refine ⟨whole ++ '.' :: rest.takeWhile isDecimal, .pointed ?_, ?_, ?_⟩
    · simpa [List.isEmpty_iff] using hne
    · intro c hc
      rcases List.mem_append.1 hc with hc | hc
      · exact hdigits c hc
      · exact isDecimal_iff.1 (List.mem_takeWhile_imp hc)
    · simp [List.takeWhile_append_dropWhile]
  · rename_i cs _
    refine ⟨whole, .plain (by simpa [List.isEmpty_iff] using hne), ?_, rfl⟩
    simpa using hdigits

/-- A literal is split where its digits end. -/
theorem split_mantissa {mantissa whole fraction rest : List Char}
    (hmantissa : Mantissa mantissa whole fraction) (hdigits : ∀ c ∈ whole ++ fraction, IsDigit c)
    (hrest : ∀ c tail, rest = c :: tail → ¬ IsDigit c ∧ c ≠ '.') :
    (mantissa ++ rest).takeWhile isDecimal = whole ∧
      splitFraction ((mantissa ++ rest).dropWhile isDecimal) = (fraction, rest) := by
  have hwhole : ∀ c ∈ whole, IsDigit c := fun c hc => hdigits c (List.mem_append_left _ hc)
  have hend : ∀ c tail, rest = c :: tail → ¬ IsDigit c := fun c tail h => (hrest c tail h).1
  cases hmantissa with
  | plain =>
    -- There is no point behind the digits, so no fraction is looked for.
    obtain ⟨htake, hdrop⟩ := takeWhile_dropWhile_of_digits hwhole hend
    rw [htake, hdrop]
    refine ⟨rfl, ?_⟩
    unfold splitFraction
    split
    · exact absurd rfl (hrest _ _ rfl).2
    · rfl
  | pointed =>
    have hfraction : ∀ c ∈ fraction, IsDigit c := fun c hc => hdigits c (List.mem_append_right _ hc)
    have hpoint : ∀ c tail, '.' :: (fraction ++ rest) = c :: tail → ¬ IsDigit c := by
      rintro c tail heq
      cases heq
      decide
    obtain ⟨htake, hdrop⟩ := takeWhile_dropWhile_of_digits hwhole hpoint
    obtain ⟨htake', hdrop'⟩ := takeWhile_dropWhile_of_digits hfraction hend
    rw [List.append_assoc, List.cons_append, htake, hdrop, splitFraction, htake', hdrop']
    exact ⟨rfl, rfl⟩

theorem Mantissa.ne_nil {mantissa whole fraction : List Char}
    (h : Mantissa mantissa whole fraction) : (whole.isEmpty && fraction.isEmpty) = false := by
  cases h with
  | plain hne => simpa using hne
  | pointed hne => simpa using hne

/-- An unsigned literal is read as the number that its digits and its exponent give. -/
theorem digits?_eq_some_iff {negative : Bool} {cs : List Char} {x : Binary64} :
    digits? negative cs = some x ↔
      ∃ digits exponent, Unsigned cs digits exponent ∧
        x = .ofDecimal negative digits exponent := by
  constructor
  · intro h
    have hwhole : ∀ c ∈ cs.takeWhile isDecimal, IsDigit c :=
      fun c hc => isDecimal_iff.1 (List.mem_takeWhile_imp hc)
    rw [digits?] at h
    dsimp only at h
    split at h
    · cases h
    · rename_i hne
      obtain ⟨mantissa, hmantissa, hdigits, hcs⟩ := mantissa_splitFraction _ _ hwhole hne
      obtain ⟨e, he, rfl⟩ := Option.map_eq_some_iff.1 h
      rw [List.takeWhile_append_dropWhile] at hcs
      have hliteral := Unsigned.mk hmantissa hdigits (exponent?_eq_some_iff.1 he)
      rw [← hcs] at hliteral
      exact ⟨_, _, hliteral, by rw [runValue_eq hdigits]⟩
  · rintro ⟨_, _, ⟨hmantissa, hdigits, hexponent⟩, rfl⟩
    obtain ⟨htake, hsplit⟩ := split_mantissa hmantissa hdigits fun c tail => hexponent.head_ne
    rw [digits?, htake, hsplit]
    simp only [hmantissa.ne_nil, exponent?_eq_some_iff.2 hexponent, runValue_eq hdigits]
    rfl

/-! ## §5 Literals -/

theorem Mantissa.exists_cons {mantissa whole fraction : List Char}
    (h : Mantissa mantissa whole fraction) (hdigits : ∀ c ∈ whole, IsDigit c) :
    ∃ c tail, mantissa = c :: tail ∧ (IsDigit c ∨ c = '.') := by
  cases whole with
  | nil =>
    cases h with
    | plain hne => exact absurd rfl hne
    | pointed => exact ⟨'.', fraction, rfl, .inr rfl⟩
  | cons c tail =>
    have hc : IsDigit c := hdigits c List.mem_cons_self
    cases h with
    | plain => exact ⟨c, tail, rfl, .inl hc⟩
    | pointed => exact ⟨c, tail ++ '.' :: fraction, rfl, .inl hc⟩

/-- A literal begins with a digit or with its point. -/
theorem Unsigned.exists_cons {cs : List Char} {digits : ℕ} {exponent : ℤ}
    (h : Unsigned cs digits exponent) : ∃ c tail, cs = c :: tail ∧ (IsDigit c ∨ c = '.') := by
  obtain ⟨hmantissa, hdigits, -⟩ := h
  obtain ⟨c, tail, rfl, hc⟩ :=
    hmantissa.exists_cons fun c hmem => hdigits c (List.mem_append_left _ hmem)
  exact ⟨c, _, rfl, hc⟩

/-- A literal is none of the words that are read as well. -/
theorem Unsigned.map_toLower_ne {cs : List Char} {digits : ℕ} {exponent : ℤ}
    (h : Unsigned cs digits exponent) (word : String) {first : Char} {rest : List Char}
    (hword : word.toList = first :: rest) (hfirst : ¬ IsDigit first ∧ first ≠ '.') :
    String.ofList (cs.map Char.toLower) ≠ word := by
  obtain ⟨c, tail, rfl, hc⟩ := h.exists_cons
  have hlower : c.toLower = c := by
    rcases hc with ⟨-, hnine⟩ | rfl
    · -- Upper case letters come after the digits.
      have hle : c.val ≤ 57 := hnine
      refine dif_neg ?_
      rintro ⟨hupper, -⟩
      exact absurd (UInt32.le_trans hupper hle) (by decide)
    · rfl
  intro heq
  have hlist : (c :: tail).map Char.toLower = first :: rest := by
    rw [← hword, ← heq, String.toList_ofList]
  rw [List.map_cons, hlower, List.cons.injEq] at hlist
  rw [← hlist.1] at hfirst
  exact hc.elim hfirst.1 hfirst.2

/-- A text is read as a finite double just if it is a decimal literal that is not too large. -/
theorem ofLiteral?_eq_finite_iff {cs : List Char} {x : Binary64} :
    (Binary64.ofLiteral? (String.ofList cs)).filter (·.isFinite) = some x ↔
      x.isFinite = true ∧ ∃ sign literal negative digits exponent, cs = sign ++ literal ∧
        Sign sign negative ∧ Unsigned literal digits exponent ∧
        x = .ofDecimal negative digits exponent := by
  rw [Option.filter_eq_some_iff, and_comm]
  refine and_congr_right fun hfinite => ?_
  rw [Binary64.ofLiteral?, String.toList_ofList]
  constructor
  · -- The words for infinity and for what is no number give nothing finite.
    intro h
    obtain ⟨sign, hsign, hcs⟩ := sign_splitSign cs
    generalize splitSign cs = parts at *
    obtain ⟨negative, literal⟩ := parts
    dsimp only at h
    split at h
    · cases h
      cases hfinite
    · split at h
      · cases h
        cases hfinite
      · obtain ⟨digits, exponent, hliteral, hx⟩ := digits?_eq_some_iff.1 h
        exact ⟨sign, _, _, digits, exponent, hcs, hsign, hliteral, hx⟩
  · rintro ⟨sign, literal, negative, digits, exponent, rfl, hsign, hliteral, rfl⟩
    have hsplit : splitSign (sign ++ literal) = (negative, literal) := by
      refine splitSign_of_sign hsign fun c rest heq => ?_
      obtain ⟨first, tail, rfl, hfirst⟩ := hliteral.exists_cons
      cases heq
      rcases hfirst with hfirst | rfl
      · exact hfirst.ne_sign
      · decide
    rw [hsplit]
    simp only [hliteral.map_toLower_ne "inf" rfl (by decide),
      hliteral.map_toLower_ne "infinity" rfl (by decide),
      hliteral.map_toLower_ne "nan" rfl (by decide), or_self, if_false]
    exact digits?_eq_some_iff.2 ⟨digits, exponent, hliteral, rfl⟩

/-- **Literals in a range.**  A text is read as a double in a range just if it spells a number whose
nearest double lies there. -/
theorem exists_inRange_iff {cs : List Char} {min max : Binary64} (hmin : min.isSmall = true)
    (hmax : max.isSmall = true) :
    (∃ x, (Binary64.ofLiteral? (String.ofList cs)).filter (·.isFinite) = some x ∧
        min.le x = true ∧ x.le max = true) ↔
      ∃ q units, Spells cs q ∧ Binary64.IsNearest q units ∧
        min.toRat ≤ units * Binary64.unit ∧ units * Binary64.unit ≤ max.toRat := by
  constructor
  · rintro ⟨x, hx, hlow, hhigh⟩
    obtain ⟨hfinite, sign, literal, negative, digits, exponent, rfl, hsign, hliteral, rfl⟩ :=
      ofLiteral?_eq_finite_iff.1 hx
    obtain ⟨units, hunits⟩ := ((Binary64.comesTo_ofDecimal negative digits exponent).inRange_iff
      hmin hmax).1 ⟨hfinite, hlow, hhigh⟩
    exact ⟨_, units, .mk hsign hliteral, hunits⟩
  · rintro ⟨_, units, ⟨hsign, hliteral⟩, hunits⟩
    rename_i sign literal negative digits exponent
    obtain ⟨hfinite, hlow, hhigh⟩ :=
      ((Binary64.comesTo_ofDecimal negative digits exponent).inRange_iff hmin hmax).2
        ⟨units, hunits⟩
    exact ⟨_, ofLiteral?_eq_finite_iff.2 ⟨hfinite, sign, literal, negative, digits, exponent, rfl,
      hsign, hliteral, rfl⟩, hlow, hhigh⟩

end PanelLayout.Literal
