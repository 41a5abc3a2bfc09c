import PanelLayout.Proofs.Expression.Depth
import PanelLayout.Proofs.Expression.References

/-!
# Literal braces

A brace that is to be read as a brace is written behind a backslash.  The depth, the segments and
the references are found by three passes, of which the first skips what stands behind a backslash
while the others look at the character before a brace.  All three leave such braces alone.

* `depthFrom_escapeBraces` says so of the depth.  It needs a text without a backslash of its own,
  which would take the one before a brace for the character that it escapes.
* `noOpening_escapeBraces` says that no brace opens anything, so that there are no segments and no
  references.

`escapeBraces_literal` puts them together.
-/

namespace PanelLayout.Expression

/-! ## §1 Writing backslashes -/

def braces : List Char := ['\x7b', '\x7d']

/-- A brace behind a backslash, or any other character. -/
def escapeBrace (c : Char) : List Char := if c ∈ braces then ['\\', c] else [c]

/-- The text with a backslash before each brace. -/
def escapeBraces (s : String) : String := String.ofList (s.toList.flatMap escapeBrace)

theorem toList_escapeBraces (s : String) :
    (escapeBraces s).toList = s.toList.flatMap escapeBrace := String.toList_ofList

theorem escapeBrace_of_mem {c : Char} (h : c ∈ braces) : escapeBrace c = ['\\', c] := if_pos h

theorem escapeBrace_of_notMem {c : Char} (h : c ∉ braces) : escapeBrace c = [c] := if_neg h

theorem notMem_braces_iff {c : Char} : c ∉ braces ↔ c ≠ '\x7b' ∧ c ≠ '\x7d' := by simp [braces]

/-- Neither a brace nor a backslash is blank. -/
theorem isBlank_escapeBraces (s : String) : Text.isBlank (escapeBraces s) = Text.isBlank s := by
  have hchar : ∀ c, (escapeBrace c).all Text.isSpace = Text.isSpace c := by
    intro c
    by_cases hc : c ∈ braces
    · have hspace : Text.isSpace c = false := by
        simp only [braces, List.mem_cons, List.not_mem_nil, or_false] at hc
        rcases hc with rfl | rfl <;> rfl
      rw [escapeBrace_of_mem hc, hspace]
      rfl
    · simp [escapeBrace_of_notMem hc]
  rw [Text.isBlank, Text.isBlank, toList_escapeBraces, List.all_flatMap]
  simp only [hchar]

/-! ## §2 Each pass over literal braces -/

/-- The depth stays what it was, since every brace is skipped with its backslash. -/
theorem depthFrom_escapeBraces {cs : List Char} (h : '\\' ∉ cs) (depth deepest : Nat) :
    depthFrom depth deepest (cs.flatMap escapeBrace) = deepest := by
  induction cs with
  | nil => rfl
  | cons c cs ih =>
    obtain ⟨hc, hcs⟩ := not_or.1 (List.mem_cons.not.1 h)
    rw [List.flatMap_cons]
    by_cases hbrace : c ∈ braces
    · rw [escapeBrace_of_mem hbrace]
      exact ih hcs
    · obtain ⟨hopen, hclose⟩ := notMem_braces_iff.1 hbrace
      rw [escapeBrace_of_notMem hbrace, List.singleton_append,
        depthFrom_cons (Ne.symm hc) hopen hclose]
      exact ih hcs

theorem nestingDepth_escapeBraces {s : String} (h : '\\' ∉ s.toList) :
    nestingDepth (escapeBraces s) = 0 := by
  rw [nestingDepth, toList_escapeBraces, depthFrom_escapeBraces h]

/-- A backslash of the text takes the one before the brace, and the brace counts. -/
example : nestingDepth (escapeBraces "\\\x7b") = 1 := by decide

/-- Before every brace stands its backslash, whatever else the text contains. -/
theorem noOpening_escapeBraces (before : Option Char) (cs : List Char) :
    NoOpening before (cs.flatMap escapeBrace) := by
  induction cs generalizing before with
  | nil => exact noOpening_nil before
  | cons c cs ih =>
    rw [List.flatMap_cons]
    by_cases hbrace : c ∈ braces
    · rw [escapeBrace_of_mem hbrace]
      apply noOpening_cons_iff.2
      refine ⟨fun hbackslash => absurd hbackslash (by decide), ?_⟩
      exact noOpening_cons_iff.2 ⟨fun _ => rfl, ih (some c)⟩
    · rw [escapeBrace_of_notMem hbrace]
      apply noOpening_cons_iff.2
      exact ⟨fun hopen => absurd hopen (notMem_braces_iff.1 hbrace).1, ih (some c)⟩

/-! ## §3 Literal texts -/

/-- **A backslash before each brace makes a text literal.**  Nothing is nested in it, it has no
segments and it refers to no icon modules, so an expression with this text has a problem only if it
must not be blank and is blank. -/
theorem escapeBraces_literal (s : String) (h : '\\' ∉ s.toList) :
    nestingDepth (escapeBraces s) = 0 ∧ segments (escapeBraces s) = [] ∧
      IconModule.references (escapeBraces s) = [] ∧
      ∀ (rules : RuleSet) (field : String),
        Findings.ofExpression rules field (.text (escapeBraces s)) =
          if (field = "content" ∨ field = "icon_id") ∧ Text.isBlank s then
            [.emptyRequiredExpression]
          else [] := by
  have hopening : NoOpening none (escapeBraces s).toList := by
    rw [toList_escapeBraces]
    exact noOpening_escapeBraces none s.toList
  have hdepth := nestingDepth_escapeBraces h
  have hsegments := segments_eq_nil_of_noOpening hopening
  have hreferences := IconModule.references_eq_nil_of_noOpening hopening
  refine ⟨hdepth, hsegments, hreferences, ?_⟩
  intro rules field
  have hblank : Findings.ofBlank field (escapeBraces s) =
      if (field = "content" ∨ field = "icon_id") ∧ Text.isBlank s then
        [.emptyRequiredExpression]
      else [] := by
    rw [Findings.ofBlank, isBlank_escapeBraces]
    simp [Findings.nonBlankFields]
  have hnested : Findings.ofExpressionDepth rules (escapeBraces s) = [] := by
    simp [Findings.ofExpressionDepth, hdepth]
  have hmodules : Findings.ofModules rules field (escapeBraces s) = [] := by
    simp [Findings.ofModules, hreferences]
  rw [Findings.ofExpression, AttrValue.render, hblank, hnested, hsegments, hmodules]
  simp

/-- A sum, a module and two open braces, all of them literal. -/
theorem escapeBraces_literal_sum :
    segments (escapeBraces "\x7ba + \x7bb:\x7d\x7d\x7b\x7b") = [] ∧
      Findings.ofExpression .builtin "icon_id"
        (.text (escapeBraces "\x7ba + \x7bb:\x7d\x7d\x7b\x7b")) = [] := by
  obtain ⟨-, hsegments, -, hproblems⟩ :=
    escapeBraces_literal "\x7ba + \x7bb:\x7d\x7d\x7b\x7b" (by decide)
  refine ⟨hsegments, ?_⟩
  rw [hproblems .builtin "icon_id"]
  decide

end PanelLayout.Expression
