import PanelLayout.Overrides.Basic
import PanelLayout.Proofs.Rules.Tables

/-!
# The settings of an adjustment

An adjustment is a list of settings, of which the first that is not acceptable decides.  Each section
of an adjustment looks at its settings and computes new rules at once.  Here the two are set apart:
`Setting.Good` says what a setting must be, `Setting.fault` how it is refused otherwise, and `verdict`
looks at settings one after the other without computing anything.

For each section there is an equation between the section and the verdict on its settings, and
`bind_eq_verdict` puts sections together.
-/

namespace PanelLayout

/-! ## §1 One setting -/

/-- A setting that an adjustment may be refused for. -/
inductive Setting where
  | canvas (canvas : Canvas)
  | fontSize (name : String) (px : Binary64)
  /-- The list of icon modules, whatever their names. -/
  | iconModules (modules : List String)
  | iconModule (name : String)
  | nodeDepth (max : Nat)
  | children (max : Nat)
  | maxLength (field : String) (max : Nat)
  deriving DecidableEq, Repr

namespace Setting

/-- What the setting must be, where the lengths of the given fields are limited. -/
def Good (limited : List String) : Setting → Prop
  | .canvas given => given.width ≠ 0 ∧ given.height ≠ 0
  | fontSize name px => Text.isBlank name = false ∧ Overrides.isFontSize px = true
  | iconModules modules => modules ≠ []
  | iconModule name => Overrides.isModuleName name = true
  | nodeDepth max | children max => max ≠ 0
  | maxLength field max => field ∈ limited ∧ max ≠ 0

instance (limited : List String) : DecidablePred (Good limited)
  | .canvas _ => inferInstanceAs (Decidable (_ ∧ _))
  | fontSize _ _ => inferInstanceAs (Decidable (_ ∧ _))
  | iconModules modules => inferInstanceAs (Decidable (modules ≠ []))
  | iconModule name => inferInstanceAs (Decidable (Overrides.isModuleName name = true))
  | nodeDepth max | children max => inferInstanceAs (Decidable (max ≠ 0))
  | maxLength _ _ => inferInstanceAs (Decidable (_ ∧ _))

/-- How the setting is refused if it is not what it must be.  A size is not looked at if its alias is
blank, and a length not if its field is unlimited. -/
def fault (limited : List String) : Setting → OverrideError
  | .canvas _ => .canvasNotPositive
  | fontSize name _ => if Text.isBlank name then .blankAlias else .fontSizeNotPositive name
  | iconModules _ => .noIconModules
  | iconModule name => .badIconModule name
  | nodeDepth _ => .nodeDepthNotPositive
  | children _ => .childrenNotPositive
  | maxLength field _ => if field ∈ limited then .lengthNotPositive field else .unlimitedField field

end Setting

/-! ## §2 One setting after the other -/

variable {α β : Type} {limited : List String}

/-- The value, unless one of the settings is not acceptable: then the first of these is refused. -/
def verdict (limited : List String) (value : α) : List Setting → Except OverrideError α
  | [] => .ok value
  | setting :: rest =>
    if setting.Good limited then verdict limited value rest else .error (setting.fault limited)

theorem verdict_cons_good {setting : Setting} (h : setting.Good limited) (value : α)
    (rest : List Setting) :
    verdict limited value (setting :: rest) = verdict limited value rest := if_pos h

theorem verdict_cons_fault {setting : Setting} (h : ¬setting.Good limited) (value : α)
    (rest : List Setting) :
    verdict limited value (setting :: rest) = .error (setting.fault limited) := if_neg h

/-- The value comes of settings that are all acceptable. -/
theorem verdict_eq_ok_iff {value result : α} {settings : List Setting} :
    verdict limited value settings = .ok result ↔
      (∀ setting ∈ settings, setting.Good limited) ∧ result = value := by
  induction settings with
  | nil => simp [verdict, eq_comm]
  | cons setting rest ih =>
    rw [List.forall_mem_cons]
    by_cases hgood : setting.Good limited
    · rw [verdict_cons_good hgood, ih]
      simp [hgood]
    · rw [verdict_cons_fault hgood]
      simp [hgood]

/-- A refusal comes of the first setting that is not acceptable. -/
theorem verdict_eq_error_iff {value : α} {settings : List Setting} {e : OverrideError} :
    verdict limited value settings = .error e ↔
      ∃ before setting after, settings = before ++ setting :: after ∧
        (∀ earlier ∈ before, earlier.Good limited) ∧ ¬setting.Good limited ∧
        e = setting.fault limited := by
  induction settings with
  | nil => simp [verdict]
  | cons first rest ih =>
    by_cases hgood : first.Good limited
    · rw [verdict_cons_good hgood, ih]
      apply Iff.intro
      · intro h
        obtain ⟨before, setting, after, rfl, hbefore, hrefused⟩ := h
        exact ⟨first :: before, setting, after, rfl, List.forall_mem_cons.2 ⟨hgood, hbefore⟩,
          hrefused⟩
      · intro h
        obtain ⟨before, setting, after, hsettings, hbefore, hrefused⟩ := h
        cases before with
        | nil =>
          cases hsettings
          exact absurd hgood hrefused.1
        | cons _ before =>
          cases hsettings
          exact ⟨before, setting, after, rfl, (List.forall_mem_cons.1 hbefore).2, hrefused⟩
    · rw [verdict_cons_fault hgood]
      apply Iff.intro
      · intro h
        cases h
        exact ⟨[], first, rest, rfl, by simp, hgood, rfl⟩
      · intro h
        obtain ⟨before, setting, after, hsettings, hbefore, -, rfl⟩ := h
        cases before with
        | nil =>
          cases hsettings
          rfl
        | cons _ before =>
          cases hsettings
          exact absurd (hbefore first (List.mem_cons_self ..)) hgood

/-- Two steps that look at settings are one that looks at those of the first and then at those of the
second. -/
theorem bind_eq_verdict {first : Except OverrideError α} {second : α → Except OverrideError β}
    {a : α} {b : β} {settings further : List Setting} (hfirst : first = verdict limited a settings)
    (hsecond : second a = verdict limited b further) :
    (first >>= second) = verdict limited b (settings ++ further) := by
  subst hfirst
  induction settings with
  | nil => exact hsecond
  | cons setting rest ih =>
    rw [List.cons_append]
    by_cases hgood : setting.Good limited
    · rw [verdict_cons_good hgood, verdict_cons_good hgood, ih]
    · rw [verdict_cons_fault hgood, verdict_cons_fault hgood]
      rfl

/-! ## §3 Section by section -/

namespace Overrides

open Setting (Good)

variable {base : RuleSet}

theorem applyCanvas_eq_verdict (canvas : Option Canvas) :
    applyCanvas base canvas =
      verdict limited { base with canvas := canvas.getD base.canvas }
        (canvas.toList.map .canvas) := by
  cases canvas with
  | none => rfl
  | some given =>
    by_cases hzero : given.width = 0 ∨ given.height = 0
    · have hbad : ¬Good limited (.canvas given) := fun h => hzero.elim h.1 h.2
      rw [applyCanvas, if_pos hzero]
      exact (verdict_cons_fault hbad _ _).symm
    · have hgood : Good limited (.canvas given) := not_or.1 hzero
      rw [applyCanvas, if_neg hzero]
      exact (verdict_cons_good hgood _ []).symm

def fontSizeSetting (entry : String × Binary64) : Setting := .fontSize entry.1 entry.2

/-- The sizes are given one after the other, and an alias is looked at before its size. -/
theorem applyFontSizes_eq_verdict (sizes given : List (String × Binary64)) :
    applyFontSizes sizes given =
      verdict limited (NamedList.setAll sizes given) (given.map fontSizeSetting) := by
  induction given generalizing sizes with
  | nil => rfl
  | cons head rest ih =>
    obtain ⟨name, px⟩ := head
    rw [applyFontSizes, ih]
    cases hblank : Text.isBlank name <;> cases hsize : isFontSize px <;>
      simp [fontSizeSetting, verdict, Good, Setting.fault, NamedList.setAll, hblank, hsize]

def moduleSettings : Option (List String) → List Setting
  | .none => []
  | .some modules => .iconModules modules :: modules.map .iconModule

/-- The name that is found is the first one that is refused. -/
theorem find?_eq_verdict {α : Type} (value : α) (modules : List String) :
    (match modules.find? (!isModuleName ·) with
      | some bad => .error (.badIconModule bad)
      | .none => .ok value) = verdict limited value (modules.map .iconModule) := by
  induction modules with
  | nil => rfl
  | cons name rest ih =>
    cases hname : isModuleName name with
    | false => simp [hname, verdict, Good, Setting.fault]
    | true => simpa [hname, verdict, Good] using ih

theorem applyIconModules_eq_verdict (modules : Option (List String)) :
    applyIconModules base modules =
      verdict limited { base with iconModules := modules.getD base.iconModules }
        (moduleSettings modules) := by
  cases modules with
  | none => rfl
  | some given =>
    cases given with
    | nil => rfl
    | cons first rest =>
      have hgood : Good limited (.iconModules (first :: rest)) := List.cons_ne_nil first rest
      rw [moduleSettings, verdict_cons_good hgood]
      exact find?_eq_verdict _ (first :: rest)

/-- The two limits that must be positive are looked at in the same way. -/
theorem positiveOr_eq_verdict (setting : Nat → Setting) {e : OverrideError}
    (hgood : ∀ n, (setting n).Good limited ↔ n ≠ 0) (hfault : ∀ n, (setting n).fault limited = e)
    (old : Nat) (given : Option Nat) :
    positiveOr old e given = verdict limited (given.getD old) (given.toList.map setting) := by
  cases given with
  | none => rfl
  | some n =>
    by_cases hzero : n = 0 <;> simp [positiveOr, verdict, hgood, hfault, hzero]

def limitSettings (limits : Option LimitOverrides) : List Setting :=
  (limits.bind (·.maxNodeDepth)).toList.map .nodeDepth ++
    (limits.bind (·.maxChildren)).toList.map .children

theorem applyLimits_eq_verdict (limits : Option LimitOverrides) :
    applyLimits base limits =
      verdict limited { base with limits :=
          { maxNodeDepth := (limits.bind (·.maxNodeDepth)).getD base.limits.maxNodeDepth
            maxChildren := (limits.bind (·.maxChildren)).getD base.limits.maxChildren
            maxExpressionDepth :=
              (limits.bind (·.maxExpressionDepth)).getD base.limits.maxExpressionDepth } }
        (limitSettings limits) := by
  cases limits with
  | none => rfl
  | some limits =>
    rw [limitSettings, ← List.append_nil (_ ++ _), List.append_assoc]
    apply bind_eq_verdict
      (positiveOr_eq_verdict .nodeDepth (fun _ => Iff.rfl) (fun _ => rfl) _ limits.maxNodeDepth)
    exact bind_eq_verdict
      (positiveOr_eq_verdict .children (fun _ => Iff.rfl) (fun _ => rfl) _ limits.maxChildren) rfl

def lengthSetting (entry : String × Nat) : Setting := .maxLength entry.1 entry.2

/-- The lengths are given one after the other; none of them makes a field limited that was not. -/
theorem applyMaxLengths_eq_verdict (lengths given : List (String × Nat)) :
    applyMaxLengths lengths given =
      verdict (NamedList.names lengths) (NamedList.setAll lengths given)
        (given.map lengthSetting) := by
  induction given generalizing lengths with
  | nil => rfl
  | cons head rest ih =>
    obtain ⟨field, max⟩ := head
    rw [applyMaxLengths, ih]
    by_cases hfield : field ∈ NamedList.names lengths
    · -- The field keeps its place, so the same fields are limited for the rest.
      have hsome : (lengths.lookup field).isNone = false := by
        rw [Option.isNone_eq_false_iff]
        exact NamedList.isSome_lookup_iff.2 hfield
      rw [NamedList.names_set, if_pos hfield]
      by_cases hzero : max = 0 <;>
        simp [hsome, hfield, hzero, verdict, lengthSetting, Good, Setting.fault, NamedList.setAll]
    · have hnone : lengths.lookup field = .none := NamedList.lookup_eq_none_iff.2 hfield
      simp [hnone, hfield, verdict, lengthSetting, Good, Setting.fault]

end Overrides

end PanelLayout
