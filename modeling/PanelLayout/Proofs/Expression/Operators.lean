import Mathlib.Data.List.Basic
import PanelLayout.Proofs.Expression.Problems
import PanelLayout.Proofs.Expression.Segments

/-!
# Operators in an expression

The operators of a segment are looked for after the backslashes before operators are dropped.
Dropping them takes nothing else away (`unescapes_unescapeOperators`), so that an operator is found
if and only if it is written (`mem_unescapeOperators_iff`); and it undoes the writing of such
backslashes (`unescapeOperators_escapeOperators`).

`operators_found_as_written` puts them together.
-/

namespace PanelLayout.Expression

/-! ## §1 Dropping backslashes -/

/-- The characters before which a backslash may be dropped. -/
def escapables : List Char := ['-', '+', '\\', '*', '/', '%', '?']

theorem isEscapable_iff {c : Char} : isEscapable c = true ↔ c ∈ escapables := by
  simp only [isEscapable, forbiddenOperators, escapables, Bool.or_eq_true, decide_eq_true_eq,
    List.mem_cons, List.not_mem_nil, or_false]
  tauto

theorem not_brace_of_isEscapable {c : Char} (h : isEscapable c = true) :
    c ≠ '\x7b' ∧ c ≠ '\x7d' := by
  constructor
  · rintro rfl
    exact absurd h (by decide)
  · rintro rfl
    exact absurd h (by decide)

/-- The second text is the first without some backslashes, each of which stood directly before an
operator or a backslash that is still there. -/
inductive Unescapes : List Char → List Char → Prop where
  | nil : Unescapes [] []
  | keep (c : Char) {cs ds : List Char} : Unescapes cs ds → Unescapes (c :: cs) (c :: ds)
  | drop {c : Char} {cs ds : List Char} :
      c ∈ escapables → Unescapes cs ds → Unescapes ('\\' :: c :: cs) (c :: ds)

theorem unescapes_unescapeOperators (cs : List Char) : Unescapes cs (unescapeOperators cs) := by
  fun_induction unescapeOperators cs with
  | case1 => exact .nil
  | case2 c rest hescapable ih => exact .drop (isEscapable_iff.1 hescapable) ih
  | case3 c rest hescapable ih => exact .keep '\\' ih
  | case4 c rest hescape ih => exact .keep c ih

example : unescapeOperators "a\\\\+b\\c\\".toList = "a\\+b\\c\\".toList := by decide

/-- All but backslashes is kept. -/
theorem Unescapes.mem_iff {c : Char} {cs ds : List Char} (h : Unescapes cs ds) (hc : c ≠ '\\') :
    c ∈ ds ↔ c ∈ cs := by
  induction h with
  | nil => exact Iff.rfl
  | keep d _ ih => simp [ih]
  | drop _ _ ih => simp [ih, hc]

theorem mem_unescapeOperators_iff {operator : Char} (h : operator ∈ forbiddenOperators)
    (cs : List Char) : operator ∈ unescapeOperators cs ↔ operator ∈ cs := by
  apply (unescapes_unescapeOperators cs).mem_iff
  rintro rfl
  exact absurd h (by decide)

theorem unescapeOperators_cons {c : Char} (h : c ≠ '\\') (rest : List Char) :
    unescapeOperators (c :: rest) = c :: unescapeOperators rest := by
  rw [unescapeOperators]
  exact fun _ _ hc => absurd hc h

/-! ## §2 Writing backslashes -/

/-- The text with a backslash before each operator and each backslash. -/
def escapeOperators (cs : List Char) : List Char :=
  cs.flatMap fun c => if c ∈ escapables then ['\\', c] else [c]

theorem unescapeOperators_escapeOperators (cs : List Char) :
    unescapeOperators (escapeOperators cs) = cs := by
  induction cs with
  | nil => rfl
  | cons c cs ih =>
    unfold escapeOperators at ih ⊢
    rw [List.flatMap_cons]
    by_cases hc : c ∈ escapables
    · rw [if_pos hc, List.cons_append, List.singleton_append, unescapeOperators,
        if_pos (isEscapable_iff.2 hc), ih]
    · -- Only a backslash could take the next character with it.
      have hne : c ≠ '\\' := by
        rintro rfl
        exact hc (by decide)
      rw [if_neg hc, List.singleton_append, unescapeOperators_cons hne, ih]

/-! ## §3 The operators that are found -/

theorem ofSegment_unescapeOperators (raw : List Char) :
    Findings.ofSegment (String.ofList (unescapeOperators raw)) =
      (forbiddenOperators.filter (· ∈ raw)).map
        (.forbiddenOperatorInExpression · (String.ofList (unescapeOperators raw))) := by
  have hfilter : forbiddenOperators.filter (· ∈ unescapeOperators raw) =
      forbiddenOperators.filter (· ∈ raw) := by
    apply List.filter_congr
    intro operator hoperator
    simp [mem_unescapeOperators_iff hoperator]
  rw [Findings.ofSegment, String.toList_ofList, hfilter]

/-- An operator is reported, once for each outermost closed segment and in the order of the table,
if and only if it is written in the segment; the segment is told without the backslashes that
escape.  Unescaping leaves out nothing but such backslashes, and undoes the writing of them. -/
theorem operators_found_as_written (rules : RuleSet) (field : String) (value : AttrValue) :
    (∃ division : Division, division.text = value.render.toList ∧ division.IsOutermost ∧
      (Findings.ofExpression rules field value).filter
          (·.code = "ForbiddenOperatorInExpression") =
        division.parts.flatMap fun part =>
          (forbiddenOperators.filter (· ∈ part.inside)).map
            (.forbiddenOperatorInExpression · (String.ofList (unescapeOperators part.inside)))) ∧
    (∀ cs, Unescapes cs (unescapeOperators cs)) ∧
    ∀ cs, unescapeOperators (escapeOperators cs) = cs := by
  obtain ⟨division, htext, hdivision⟩ := Division.exists_outermost value.render.toList
  refine ⟨⟨division, htext, hdivision, ?_⟩, unescapes_unescapeOperators,
    unescapeOperators_escapeOperators⟩
  rw [Findings.filter_operators, segments, ← htext, Division.rawSegments_text hdivision,
    List.map_map, List.flatMap_map]
  apply List.flatMap_congr
  intro part _
  exact ofSegment_unescapeOperators part.inside

end PanelLayout.Expression
