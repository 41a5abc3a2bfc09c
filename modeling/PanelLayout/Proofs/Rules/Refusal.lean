import PanelLayout.Proofs.Rules.Reachable

/-!
# Refused adjustments

An adjustment may be wrong in many ways at once, and it is refused for one of them.  Which one that
is depends on the adjustment alone, since all rules that a project can reach limit the lengths of the
same fields.

* `Setting.Proper` says what a setting must be, and `Setting.key` under which key it is refused.
* `Overrides.exists_apply_eq_ok_iff` and `Overrides.apply_eq_error_iff` say what comes of an
  adjustment of reachable rules.

`Overrides.apply_determined` puts them together.
-/

namespace PanelLayout

/-! ## §1 What a setting must be -/

/-- The fields whose lengths are limited in all rules that a project can reach. -/
def limitedFields : List String := ["id", "content", "condition", "icon_id"]

theorem Canvas.one_le_side_iff {side : UInt32} : 1 ≤ side.toNat ↔ side ≠ 0 := by
  rw [Nat.one_le_iff_ne_zero, not_iff_not]
  exact UInt32.toNat_inj (b := 0)

namespace Setting

/-- What the setting must be: a canvas has two positive sides, an alias shows something and stands
for a positive number of units, there are icon modules and their names are made of letters and
underscores, limits are positive, and a length is limited that has a limit. -/
def Proper : Setting → Prop
  | .canvas given => 1 ≤ given.width.toNat ∧ 1 ≤ given.height.toNat
  | fontSize name px =>
    (∃ c ∈ name.toList, Text.isSpace c = false) ∧ ∃ units, 0 < units ∧ px = .finite false units
  | iconModules modules => modules ≠ []
  | iconModule name => name ≠ "" ∧ ∀ c ∈ name.toList, RuleSet.IsModuleChar c
  | nodeDepth max | children max => 1 ≤ max
  | maxLength field max => field ∈ limitedFields ∧ 1 ≤ max

/-- The key of the setting, as it is told to the user. -/
def key : Setting → String
  | .canvas _ => "canvas"
  | fontSize name _ => if Text.isBlank name then "font_sizes" else "font_sizes." ++ name
  | iconModules _ | iconModule _ => "icon_modules"
  | nodeDepth _ => "limits.max_node_depth"
  | children _ => "limits.max_children"
  | maxLength field _ => "max_lengths." ++ field

theorem good_iff_proper {setting : Setting} : setting.Good limitedFields ↔ setting.Proper := by
  cases setting with
  | canvas given => simp only [Good, Proper, Canvas.one_le_side_iff]
  | fontSize name px =>
    simp only [Good, Proper, RuleSet.exists_not_space_iff, RuleSet.isFontSize_iff]
  | iconModules modules => rfl
  | iconModule name => exact RuleSet.isModuleName_iff
  | nodeDepth max => exact Nat.one_le_iff_ne_zero.symm
  | children max => exact Nat.one_le_iff_ne_zero.symm
  | maxLength field max => simp only [Good, Proper, Nat.one_le_iff_ne_zero]

/-- A setting is refused under its own key. -/
theorem key_fault (limited : List String) (setting : Setting) :
    (setting.fault limited).key = setting.key := by
  cases setting with
  | fontSize name px =>
    rw [fault, key]
    split <;> rfl
  | maxLength field max =>
    rw [fault, key]
    split <;> rfl
  | _ => rfl

end Setting

/-! ## §2 Adjustments of reachable rules -/

namespace Overrides

variable {overrides : Overrides} {base : RuleSet}

/-- What is looked at does not depend on the rules, as long as they are reachable. -/
theorem apply_eq_verdict_of_reachable (hbase : base.Reachable) :
    overrides.apply base = verdict limitedFields (overrides.adjust base) overrides.settings := by
  rw [apply_eq_verdict, hbase.names_maxLengths]
  rfl

theorem exists_apply_eq_ok_iff (hbase : base.Reachable) :
    (∃ rules, overrides.apply base = .ok rules) ↔
      ∀ setting ∈ overrides.settings, setting.Proper := by
  simp [apply_eq_verdict_of_reachable hbase, verdict_eq_ok_iff, Setting.good_iff_proper]

/-- The first setting that is not what it must be is refused. -/
theorem apply_eq_error_iff (hbase : base.Reachable) {e : OverrideError} :
    overrides.apply base = .error e ↔
      ∃ before setting after, overrides.settings = before ++ setting :: after ∧
        (∀ earlier ∈ before, earlier.Proper) ∧ ¬setting.Proper ∧
        e = setting.fault limitedFields := by
  simp only [apply_eq_verdict_of_reachable hbase, verdict_eq_error_iff, Setting.good_iff_proper]

/-- **An adjustment decides by itself what comes of it.**  Applied to rules that a project can reach,
it succeeds if and only if all its settings are what they must be.  Otherwise it is refused for the
first setting that is not, and under the key of that setting: the canvas comes first, then the sizes
in ascending order of their aliases, the icon modules, the limits, and the lengths in ascending order
of their fields.  All this is the same for any two such rules. -/
theorem apply_determined (overrides : Overrides) {base : RuleSet} (hbase : base.Reachable) :
    ((∃ rules, overrides.apply base = .ok rules) ↔
      ∀ setting ∈ overrides.settings, setting.Proper) ∧
    (∀ e, overrides.apply base = .error e ↔
      ∃ before setting after, overrides.settings = before ++ setting :: after ∧
        (∀ earlier ∈ before, earlier.Proper) ∧ ¬setting.Proper ∧
        e = setting.fault limitedFields) ∧
    (∀ setting : Setting, (setting.fault limitedFields).key = setting.key) ∧
    (entriesOf overrides.fontSizes).Pairwise (·.1 < ·.1) ∧
    (entriesOf overrides.maxLengths).Pairwise (·.1 < ·.1) ∧
    ∀ other : RuleSet, other.Reachable →
      ((∃ rules, overrides.apply base = .ok rules) ↔ ∃ rules, overrides.apply other = .ok rules) ∧
      ∀ e, overrides.apply base = .error e ↔ overrides.apply other = .error e := by
  refine ⟨exists_apply_eq_ok_iff hbase, fun e => apply_eq_error_iff hbase,
    Setting.key_fault limitedFields, sorted_entriesOf _, sorted_entriesOf _, ?_⟩
  intro other hother
  refine ⟨?_, ?_⟩
  · rw [exists_apply_eq_ok_iff hbase, exists_apply_eq_ok_iff hother]
  · intro e
    rw [apply_eq_error_iff hbase, apply_eq_error_iff hother]

/-- A proper canvas, one proper size and one of nothing, no icon modules, and a length of a field that
has no limit. -/
def manyFaults : Overrides :=
  { Overrides.none with
    canvas := .some ⟨400, 300⟩
    fontSizes := .some (.ofList [("Tiny", .ofNat 0), ("Huge", .ofNat 60)])
    iconModules := .some []
    maxLengths := .some (.ofList [("anchor", 0)]) }

/-- The first of three faults is told, and it stands behind two settings that are what they must
be. -/
theorem apply_determined_manyFaults :
    RuleSet.builtin.Reachable ∧
      manyFaults.apply .builtin = .error (.fontSizeNotPositive "Tiny") ∧
      ¬∃ rules, manyFaults.apply .builtin = .ok rules := by
  obtain ⟨hok, herror, -⟩ := apply_determined manyFaults .builtin
  have hsettings : manyFaults.settings =
      [.canvas ⟨400, 300⟩, .fontSize "Huge" (.ofNat 60)] ++
        .fontSize "Tiny" (.ofNat 0) :: [.iconModules [], .maxLength "anchor" 0] := by decide +kernel
  have hbefore : ∀ earlier ∈ [Setting.canvas ⟨400, 300⟩, .fontSize "Huge" (.ofNat 60)],
      earlier.Proper := by
    simp only [← Setting.good_iff_proper]
    decide +kernel
  have htiny : ¬(Setting.fontSize "Tiny" (.ofNat 0)).Proper := by
    rw [← Setting.good_iff_proper]
    decide +kernel
  refine ⟨.builtin, (herror _).2 ⟨_, _, _, hsettings, hbefore, htiny, by decide⟩, ?_⟩
  intro h
  exact htiny (hok.1 h _ (by simp [hsettings]))

end Overrides

end PanelLayout
