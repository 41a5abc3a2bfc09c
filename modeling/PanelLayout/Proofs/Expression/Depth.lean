import Mathlib.Algebra.BigOperators.Group.List.Basic
import Mathlib.Algebra.Order.Ring.Int
import Mathlib.Order.Bounds.Basic
import PanelLayout.Expression.Braces

/-!
# The depth of an expression

The depth of an expression is counted in one pass: a brace moves the level up or down, the level
never falls below zero, and the depth is the highest level reached.  Here it is described without
the pass, as the greatest brace surplus of any stretch of the text that is left when every
backslash is dropped with the character behind it.

* `peakFrom` is the count on bare steps, and `Peaks` its invariant: the level is the greatest sum of
  an ending of what was read, and the highest level that of a stretch.  `Peaks.snoc` is the step,
  and `Peaks.isGreatest_peakFrom` the run.
* `depthFrom_eq_peakFrom` says that the pass over a text counts the braces that are left.

`isGreatest_nestingDepth` puts them together.
-/

namespace PanelLayout.Expression

/-! ## §1 The greatest sum of a stretch -/

/-- The highest level reached by the given steps.  The level never falls below zero, and `highest`
was reached before. -/
def peakFrom (level highest : Nat) : List Int → Nat
  | [] => highest
  | step :: steps =>
    let next := ((level : Int) + step).toNat
    peakFrom next (max highest next) steps

/-- What the level and the highest level say about the steps that were read. -/
structure Peaks (read : List Int) (level highest : Nat) : Prop where
  level : IsGreatest {n : Int | ∃ ending, ending <:+ read ∧ ending.sum = n} level
  highest : IsGreatest {n : Int | ∃ stretch, stretch <:+: read ∧ stretch.sum = n} highest

theorem peaks_nil : Peaks [] 0 0 := by
  constructor
  · constructor
    · exact ⟨[], List.suffix_refl [], rfl⟩
    · intro n hn
      obtain ⟨ending, hending, rfl⟩ := hn
      simp [List.suffix_nil.1 hending]
  · constructor
    · exact ⟨[], List.infix_refl [], rfl⟩
    · intro n hn
      obtain ⟨stretch, hstretch, rfl⟩ := hn
      simp [List.infix_nil.1 hstretch]

namespace Peaks

variable {read : List Int} {level highest : Nat}

/-- An ending of what was read goes on with the next step, or a new one begins behind it. -/
theorem level_snoc (h : Peaks read level highest) (step : Int) :
    IsGreatest {n : Int | ∃ ending, ending <:+ read ++ [step] ∧ ending.sum = n}
      (((level : Int) + step).toNat : Nat) := by
  obtain ⟨ending, hending, hsum⟩ := h.level.1
  constructor
  · by_cases hnext : 0 ≤ (level : Int) + step
    · refine ⟨ending ++ [step], ?_, ?_⟩
      · exact List.suffix_concat_iff.2 (.inr ⟨ending, rfl, hending⟩)
      · simp [hsum, hnext]
    · refine ⟨[], List.nil_suffix, ?_⟩
      simp only [List.sum_nil]
      omega
  · intro n hn
    obtain ⟨longer, hlonger, rfl⟩ := hn
    rcases List.suffix_concat_iff.1 hlonger with rfl | ⟨shorter, rfl, hshorter⟩
    · simp
    · have hle : shorter.sum ≤ level := h.level.2 ⟨shorter, hshorter, rfl⟩
      rw [List.sum_append, List.sum_singleton]
      omega

/-- A stretch of what was read lies before the next step, or ends with it. -/
theorem highest_snoc (h : Peaks read level highest) (step : Int) :
    IsGreatest {n : Int | ∃ stretch, stretch <:+: read ++ [step] ∧ stretch.sum = n}
      (max highest ((level : Int) + step).toNat : Nat) := by
  obtain ⟨⟨ending, hending, hsum⟩, hendings⟩ := h.level_snoc step
  obtain ⟨⟨stretch, hstretch, htotal⟩, hstretches⟩ := h.highest
  constructor
  · rcases max_choice highest ((level : Int) + step).toNat with hmax | hmax
    · rw [hmax]
      exact ⟨stretch, List.infix_concat_iff.2 (.inr hstretch), htotal⟩
    · rw [hmax]
      exact ⟨ending, hending.isInfix, hsum⟩
  · intro n hn
    obtain ⟨other, hother, rfl⟩ := hn
    rcases List.infix_concat_iff.1 hother with hlast | hbefore
    · have hle := hendings ⟨other, hlast, rfl⟩
      omega
    · have hle := hstretches ⟨other, hbefore, rfl⟩
      omega

/-- One more step is read. -/
theorem snoc (h : Peaks read level highest) (step : Int) :
    Peaks (read ++ [step]) ((level : Int) + step).toNat
      (max highest ((level : Int) + step).toNat) :=
  ⟨h.level_snoc step, h.highest_snoc step⟩

/-- All steps are read. -/
theorem isGreatest_peakFrom (h : Peaks read level highest) (steps : List Int) :
    IsGreatest {n : Int | ∃ stretch, stretch <:+: read ++ steps ∧ stretch.sum = n}
      (peakFrom level highest steps) := by
  induction steps generalizing read level highest with
  | nil => simpa [peakFrom] using h.highest
  | cons step steps ih => simpa [peakFrom] using ih (h.snoc step)

end Peaks

/-! ## §2 The pass over a text -/

/-- What a character adds to the number of open braces. -/
def braceValue (c : Char) : Int := if c = '\x7b' then 1 else if c = '\x7d' then -1 else 0

/-- The text without its escapes: every backslash is dropped with the character behind it. -/
def withoutEscapes : List Char → List Char
  | [] => []
  | ['\\'] => []
  | '\\' :: _ :: rest => withoutEscapes rest
  | c :: rest => c :: withoutEscapes rest

/-- What is neither a backslash at the very end nor one before another character is no backslash. -/
theorem ne_backslash_of_stays {c : Char} {rest : List Char} (hlast : c = '\\' → rest = [] → False)
    (hescape : ∀ d more, c = '\\' → rest = d :: more → False) : c ≠ '\\' := by
  intro hc
  cases rest with
  | nil => exact hlast hc rfl
  | cons d more => exact hescape d more hc rfl

theorem peakFrom_opening (level highest : Nat) (steps : List Int) :
    peakFrom level highest (1 :: steps) = peakFrom (level + 1) (max highest (level + 1)) steps :=
  rfl

theorem peakFrom_closing {level highest : Nat} (h : level ≤ highest) (steps : List Int) :
    peakFrom level highest (-1 :: steps) = peakFrom (level - 1) highest steps := by
  have hnext : ((level : Int) + -1).toNat = level - 1 := by omega
  have hhighest : max highest (level - 1) = highest := by omega
  simp only [peakFrom, hnext, hhighest]

theorem peakFrom_zero {level highest : Nat} (h : level ≤ highest) (steps : List Int) :
    peakFrom level highest (0 :: steps) = peakFrom level highest steps := by
  simp [peakFrom, h]

theorem depthFrom_cons {c : Char} (hbackslash : c ≠ '\\') (hopen : c ≠ '\x7b')
    (hclose : c ≠ '\x7d') (depth deepest : Nat) (rest : List Char) :
    depthFrom depth deepest (c :: rest) = depthFrom depth deepest rest := by
  rw [depthFrom]
  · exact fun hc => absurd hc hbackslash
  · exact fun _ _ hc => absurd hc hbackslash
  · exact hopen
  · exact hclose

/-- The pass counts the braces that are left without the escapes. -/
theorem depthFrom_eq_peakFrom {depth deepest : Nat} (h : depth ≤ deepest) (cs : List Char) :
    depthFrom depth deepest cs = peakFrom depth deepest ((withoutEscapes cs).map braceValue) := by
  fun_induction depthFrom depth deepest cs with
  | case1 depth deepest => rfl
  | case2 depth deepest => rfl
  | case3 depth deepest c rest ih => exact ih h
  | case4 depth deepest rest ih =>
    rw [ih (by omega)]
    exact (peakFrom_opening ..).symm
  | case5 depth deepest rest ih =>
    rw [ih (by omega)]
    exact (peakFrom_closing h _).symm
  | case6 depth deepest c rest hlast hescape hopen hclose ih =>
    have hvalue : braceValue c = 0 := by rw [braceValue, if_neg hopen, if_neg hclose]
    rw [ih h, withoutEscapes, List.map_cons, hvalue, peakFrom_zero h]
    · exact hlast
    · exact hescape

theorem getLast?_ne_of_cons {c d : Char} {cs : List Char} (h : (c :: cs).getLast? ≠ some d) :
    cs.getLast? ≠ some d := by
  intro hlast
  apply h
  simp [List.getLast?_cons, hlast]

/-- The escapes of a text that does not end with a backslash lie within it. -/
theorem withoutEscapes_append {front : List Char} (h : front.getLast? ≠ some '\\')
    (back : List Char) :
    withoutEscapes (front ++ back) = withoutEscapes front ++ withoutEscapes back := by
  fun_induction withoutEscapes front with
  | case1 => rfl
  | case2 => simp at h
  | case3 c rest ih => exact ih (getLast?_ne_of_cons (getLast?_ne_of_cons h))
  | case4 c rest hlast hescape ih =>
    have hne : c ≠ '\\' := ne_backslash_of_stays hlast hescape
    rw [List.cons_append, withoutEscapes, ih (getLast?_ne_of_cons h), List.cons_append]
    · exact fun hc => absurd hc hne
    · exact fun _ _ hc => absurd hc hne

/-! ## §3 The depth -/

theorem nestingDepth_ofList (cs : List Char) :
    nestingDepth (String.ofList cs) = depthFrom 0 0 cs := by
  rw [nestingDepth, String.toList_ofList]

theorem isGreatest_depthFrom (cs : List Char) :
    IsGreatest {n : Int | ∃ stretch, stretch <:+: (withoutEscapes cs).map braceValue ∧
      stretch.sum = n} (depthFrom 0 0 cs) := by
  rw [depthFrom_eq_peakFrom (le_refl 0)]
  exact peaks_nil.isGreatest_peakFrom _

/-- The depth is the greatest brace surplus of a stretch of the text, escapes aside, and nothing
that stands before a text takes from its depth. -/
theorem isGreatest_nestingDepth (s : String) :
    IsGreatest {n : Int | ∃ stretch, stretch <:+: (withoutEscapes s.toList).map braceValue ∧
      stretch.sum = n} (nestingDepth s) ∧
    ∀ front back, s.toList = front ++ back → front.getLast? ≠ some '\\' →
      nestingDepth (String.ofList back) ≤ nestingDepth s := by
  have hgreatest := isGreatest_depthFrom s.toList
  refine ⟨hgreatest, ?_⟩
  intro front back hs hfront
  obtain ⟨⟨stretch, hstretch, hsum⟩, -⟩ := isGreatest_depthFrom back
  -- A stretch of what follows is a stretch of the whole text.
  have hwhole : stretch <:+: (withoutEscapes s.toList).map braceValue := by
    rw [hs, withoutEscapes_append hfront, List.map_append]
    exact hstretch.trans (List.suffix_append _ _).isInfix
  have hle : stretch.sum ≤ nestingDepth s := hgreatest.2 ⟨stretch, hwhole, rfl⟩
  rw [nestingDepth_ofList]
  omega

end PanelLayout.Expression
