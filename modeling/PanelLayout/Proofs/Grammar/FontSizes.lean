import Mathlib.Data.List.DropRight
import PanelLayout.Findings.Values
import PanelLayout.Proofs.Grammar.Basic
import PanelLayout.Proofs.Rules.Aliases

/-!
# Which values give a font size

A font size is read by cutting off `px`, trimming what is before it, and reading that as a literal.
`exists_blanks` and `trim_blanks` say what trimming takes away, and `exists_px_iff` puts it together
with `Literal.exists_inRange_iff`: a value comes to a size in a range just if it fits the range.
-/

namespace PanelLayout

/-! ## §1 White space -/

namespace Text

theorem isSpace_iff {c : Char} : isSpace c = true ↔ IsWhite c := by
  simp only [isSpace, isSpaceCode, IsWhite, whiteSpace, Bool.or_eq_true, Bool.and_eq_true,
    decide_eq_true_iff, List.mem_cons, List.not_mem_nil, or_false]
  omega

/-- Only blanks are trimmed. -/
theorem exists_blanks (cs : List Char) :
    ∃ before after, cs = before ++ trim cs ++ after ∧ (∀ c ∈ before, IsWhite c) ∧
      ∀ c ∈ after, IsWhite c := by
  refine ⟨cs.takeWhile isSpace, (cs.dropWhile isSpace).rtakeWhile isSpace, ?_, ?_, ?_⟩
  · have htrim : trim cs = (cs.dropWhile isSpace).rdropWhile isSpace := rfl
    rw [htrim, List.append_assoc, List.rdropWhile_append_rtakeWhile,
      List.takeWhile_append_dropWhile]
  · exact fun c hc => isSpace_iff.1 (List.mem_takeWhile_imp hc)
  · exact fun c hc => isSpace_iff.1 (List.mem_rtakeWhile_imp hc)

theorem dropWhile_isSpace {blanks core : List Char} (hblanks : ∀ c ∈ blanks, IsWhite c)
    (hcore : ∀ c ∈ core, ¬ IsWhite c) (hne : core ≠ []) (rest : List Char) :
    (blanks ++ (core ++ rest)).dropWhile isSpace = core ++ rest := by
  obtain ⟨c, tail, rfl⟩ := List.exists_cons_of_ne_nil hne
  rw [List.dropWhile_append_of_pos fun c hc => isSpace_iff.2 (hblanks c hc), List.cons_append,
    List.dropWhile_cons_of_neg (mt isSpace_iff.1 (hcore c List.mem_cons_self))]

/-- All blanks at the ends are trimmed. -/
theorem trim_blanks {before core after : List Char} (hbefore : ∀ c ∈ before, IsWhite c)
    (hafter : ∀ c ∈ after, IsWhite c) (hcore : ∀ c ∈ core, ¬ IsWhite c) (hne : core ≠ []) :
    trim (before ++ core ++ after) = core := by
  have hreverse : (core ++ after).reverse.dropWhile isSpace = core.reverse := by
    have hdrop : (after.reverse ++ (core.reverse ++ [])).dropWhile isSpace = core.reverse ++ [] :=
      dropWhile_isSpace (by simpa using hafter) (by simpa using hcore) (by simpa using hne) []
    rwa [List.append_nil, ← List.reverse_append] at hdrop
  rw [trim, List.append_assoc, dropWhile_isSpace hbefore hcore hne, hreverse, List.reverse_reverse]

end Text

/-! ## §2 Literals have no blanks -/

namespace Literal

/-- The characters of literals besides the digits. -/
def marks : List Char := ['+', '-', '.', 'e', 'E']

theorem Sign.subset_marks {sign : List Char} {negative : Bool} (h : Sign sign negative) :
    sign ⊆ marks := by
  cases h <;> decide

theorem Mantissa.mem_iff {mantissa whole fraction : List Char}
    (h : Mantissa mantissa whole fraction) {c : Char} (hc : c ∈ mantissa) :
    c ∈ whole ++ fraction ∨ c ∈ marks := by
  cases h with
  | plain => exact .inl (List.mem_append_left _ hc)
  | pointed =>
    rw [List.mem_append, List.mem_cons] at hc
    rcases hc with hc | rfl | hc
    · exact .inl (List.mem_append_left _ hc)
    · exact .inr (by decide)
    · exact .inl (List.mem_append_right _ hc)

theorem Exponent.mem {exponent : List Char} {e : ℤ} (h : Exponent exponent e) {c : Char}
    (hc : c ∈ exponent) : IsDigit c ∨ c ∈ marks := by
  cases h with
  | absent => cases hc
  | present hmark hsign _ hdigits =>
    rw [List.mem_cons, List.mem_append] at hc
    rcases hc with rfl | hc | hc
    · rcases hmark with rfl | rfl <;> exact .inr (by decide)
    · exact .inr (hsign.subset_marks hc)
    · exact .inl (hdigits c hc)

theorem Spells.mem {cs : List Char} {q : ℚ} (h : Spells cs q) {c : Char} (hc : c ∈ cs) :
    IsDigit c ∨ c ∈ marks := by
  obtain ⟨hsign, hmantissa, hdigits, hexponent⟩ := h
  rw [List.mem_append, List.mem_append] at hc
  rcases hc with hc | hc | hc
  · exact .inr (hsign.subset_marks hc)
  · exact (hmantissa.mem_iff hc).imp_left (hdigits c)
  · exact hexponent.mem hc

theorem Spells.not_isWhite {cs : List Char} {q : ℚ} (h : Spells cs q) :
    ∀ c ∈ cs, ¬ Text.IsWhite c := by
  intro c hc hwhite
  rcases h.mem hc with ⟨hlow, hhigh⟩ | hmark
  · -- No code point from that of `0` to that of `9` is white space.
    have hlow : 48 ≤ c.toNat := hlow
    have hhigh : c.toNat ≤ 57 := hhigh
    simp only [Text.IsWhite, Text.whiteSpace, List.mem_cons, List.not_mem_nil, or_false] at hwhite
    omega
  · rw [Text.IsWhite] at hwhite
    revert hwhite
    simp only [marks, List.mem_cons, List.not_mem_nil, or_false] at hmark
    rcases hmark with rfl | rfl | rfl | rfl | rfl <;> decide

theorem Spells.ne_nil {cs : List Char} {q : ℚ} (h : Spells cs q) : cs ≠ [] := by
  obtain ⟨hsign, hliteral⟩ := h
  obtain ⟨c, tail, rfl, -⟩ := hliteral.exists_cons
  exact List.append_ne_nil_of_right_ne_nil _ (List.cons_ne_nil c tail)

end Literal

/-! ## §3 Font sizes -/

namespace FontSize

variable {rules : RuleSet} {min max : Binary64}

/-- A value comes to a size between small bounds just if it fits between them. -/
theorem exists_px_iff (hmin : min.isSmall = true) (hmax : max.isSmall = true) (value : AttrValue) :
    (∃ px, resolve? rules value = some px ∧ min.le px = true ∧ px.le max = true) ↔
      Fits rules min.toRat max.toRat value := by
  have hrange : ∀ n : Number, n.InRange min.toRat (some max.toRat) ↔
      min.le n.toBinary64 = true ∧ n.toBinary64.le max = true := by
    intro n
    rw [Number.inRange_some_iff, Binary64.le_toBinary64_iff hmin, Binary64.toBinary64_le_iff hmax]
  cases value with
  | number n =>
    constructor
    · rintro ⟨px, hpx, hlow, hhigh⟩
      cases hpx
      exact .number ((hrange n).2 ⟨hlow, hhigh⟩)
    · rintro ⟨hn⟩
      exact ⟨_, rfl, (hrange n).1 hn⟩
  | text text =>
    -- A text that ends in `px` is never looked up.
    by_cases hpx : ∃ front, text.toList = front ++ ['p', 'x']
    · obtain ⟨front, hfront⟩ := hpx
      rw [resolve?, ofText?_of_px hfront, Literal.exists_inRange_iff hmin hmax]
      constructor
      · rintro ⟨q, units, hspells, hnearest, hlow, hhigh⟩
        obtain ⟨before, after, hblanks, hbefore, hafter⟩ := Text.exists_blanks front
        rw [hblanks] at hfront
        exact .pixels hfront hbefore hafter hspells hnearest hlow hhigh
      · intro h
        cases h with
        | pixels htext hbefore hafter hspells hnearest hlow hhigh =>
          -- What stands before the `px` is the literal with its blanks.
          have hsame := List.append_cancel_right (hfront.symm.trans htext)
          rw [hsame, Text.trim_blanks hbefore hafter hspells.not_isWhite hspells.ne_nil]
          exact ⟨_, _, hspells, hnearest, hlow, hhigh⟩
        | named htext => exact absurd hfront (htext front)
    · have hnot := not_exists.1 hpx
      rw [resolve?, ofText?_of_not_px hnot]
      constructor
      · rintro ⟨px, hnamed, hlow, hhigh⟩
        exact .named hnot hnamed ((hrange (.float px)).2 ⟨hlow, hhigh⟩)
      · intro h
        cases h with
        | pixels htext => exact absurd htext (hnot _)
        | named _ hnamed hin => exact ⟨_, hnamed, (hrange (.float _)).1 hin⟩
  | _ =>
    constructor
    · rintro ⟨px, hpx, -⟩
      cases hpx
    · rintro ⟨⟩

end FontSize

end PanelLayout
