import PanelLayout.Proofs.Rules.Adjustment

/-!
# Rule sets that a project can reach

A project begins with the built-in rules and adjusts them any number of times; an adjustment that is
refused leaves the rules as they were.  What all rule sets that arise in this way have in common is
proved along the adjustments.

* `RuleSet.Reachable` says which rule sets these are, and `RuleSet.reachable_iff` that they are those
  at which some run of adjustments ends.
* `RuleSet.Sound` is what they have in common.  `Overrides.sound_adjust` is the step, and
  `RuleSet.Reachable.sound` the run.
-/

namespace PanelLayout

/-! ## §1 Runs of adjustments -/

/-- The built-in rules, and what adjustments make of rules that were reached before. -/
inductive RuleSet.Reachable : RuleSet → Prop where
  | builtin : Reachable RuleSet.builtin
  | adjusted {base rules : RuleSet} (overrides : Overrides) :
      Reachable base → overrides.apply base = .ok rules → Reachable rules

namespace RuleSet

/-- The rules after an attempt to adjust them: if it is refused, they stay. -/
def attempt (rules : RuleSet) (overrides : Overrides) : RuleSet :=
  match overrides.apply rules with
  | .ok adjusted => adjusted
  | .error _ => rules

/-- The rules after a run of attempts. -/
def after (rules : RuleSet) (steps : List Overrides) : RuleSet := steps.foldl attempt rules

theorem attempt_of_ok {rules adjusted : RuleSet} {overrides : Overrides}
    (h : overrides.apply rules = .ok adjusted) : rules.attempt overrides = adjusted := by
  rw [attempt, h]

theorem Reachable.attempt {rules : RuleSet} (h : rules.Reachable) (overrides : Overrides) :
    (rules.attempt overrides).Reachable := by
  unfold RuleSet.attempt
  split
  · rename_i adjusted happly
    exact .adjusted overrides h happly
  · exact h

theorem Reachable.after {rules : RuleSet} (h : rules.Reachable) (steps : List Overrides) :
    (rules.after steps).Reachable := by
  induction steps generalizing rules with
  | nil => exact h
  | cons overrides rest ih => exact ih (h.attempt overrides)

/-- The reachable rule sets are those at which a run ends that begins with the built-in rules. -/
theorem reachable_iff {rules : RuleSet} :
    rules.Reachable ↔ ∃ steps, rules = builtin.after steps := by
  constructor
  · intro h
    induction h with
    | builtin => exact ⟨[], rfl⟩
    | adjusted overrides _ happly ih =>
      obtain ⟨steps, rfl⟩ := ih
      refine ⟨steps ++ [overrides], ?_⟩
      rw [RuleSet.after, List.foldl_append]
      exact (attempt_of_ok happly).symm
  · rintro ⟨steps, rfl⟩
    exact Reachable.builtin.after steps

/-! ## §2 What reachable rules have in common -/

/-- An ASCII letter or an underscore. -/
def IsModuleChar (c : Char) : Prop := ('a' ≤ c ∧ c ≤ 'z') ∨ ('A' ≤ c ∧ c ≤ 'Z') ∨ c = '_'

/-- Rules that every check can work with. -/
structure Sound (rules : RuleSet) : Prop where
  canvas : 1 ≤ rules.canvas.width.toNat ∧ 1 ≤ rules.canvas.height.toNat
  nodeDepth : 1 ≤ rules.limits.maxNodeDepth
  children : 1 ≤ rules.limits.maxChildren
  /-- The same four fields are limited, in the order in which they are checked. -/
  fields : NamedList.names rules.maxLengths = ["id", "content", "condition", "icon_id"]
  lengths : ∀ entry ∈ rules.maxLengths, 1 ≤ entry.2
  aliases : (NamedList.names rules.fontSizes).Nodup
  firstAliases : ["Small", "Medium", "Large"] <+: NamedList.names rules.fontSizes
  aliasesNotBlank : ∀ entry ∈ rules.fontSizes, ∃ c ∈ entry.1.toList, Text.isSpace c = false
  /-- A size is a positive number of units. -/
  sizes : ∀ entry ∈ rules.fontSizes, ∃ units, 0 < units ∧ entry.2 = .finite false units
  modules : rules.iconModules ≠ []
  moduleNames : ∀ name ∈ rules.iconModules, name ≠ "" ∧ ∀ c ∈ name.toList, IsModuleChar c

theorem isModuleChar_iff {c : Char} : IsModuleChar c ↔ IconModule.isNameChar c = true := by
  have halpha : c.isAlpha = (decide ('A'.val ≤ c.val ∧ c.val ≤ 'Z'.val) ||
      (decide ('a'.val ≤ c.val) && decide (c.val ≤ 'z'.val))) := rfl
  simp only [IsModuleChar, IconModule.isNameChar, halpha, Bool.or_eq_true, Bool.and_eq_true,
    decide_eq_true_eq, Char.le_def, or_assoc]
  exact or_left_comm

theorem isModuleName_iff {name : String} :
    Overrides.isModuleName name = true ↔ name ≠ "" ∧ ∀ c ∈ name.toList, IsModuleChar c := by
  simp only [Overrides.isModuleName, IconModule.isName, Bool.and_eq_true, Bool.not_eq_true',
    List.isEmpty_eq_false_iff, List.all_eq_true, isModuleChar_iff, ne_eq, String.toList_eq_nil_iff]

/-- The sizes that a font may have are the positive numbers of units. -/
theorem isFontSize_iff {px : Binary64} :
    Overrides.isFontSize px = true ↔ ∃ units, 0 < units ∧ px = .finite false units := by
  cases px with
  | nan => simp [Overrides.isFontSize, Binary64.isFinite]
  | infinite negative => simp [Overrides.isFontSize, Binary64.isFinite]
  | finite negative units =>
    cases negative with
    | false =>
      have hlt : Binary64.zero.lt (.finite false units) = decide ((0 : Int) < units) := rfl
      simp [Overrides.isFontSize, Binary64.isFinite, hlt]
    | true =>
      have hlt : Binary64.zero.lt (.finite true units) = decide ((0 : Int) < -units) := rfl
      simp [Overrides.isFontSize, Binary64.isFinite, hlt]

theorem exists_not_space_iff {s : String} :
    (∃ c ∈ s.toList, Text.isSpace c = false) ↔ Text.isBlank s = false := by
  simp [Text.isBlank]

theorem sound_builtin : builtin.Sound where
  canvas := by decide
  nodeDepth := by decide
  children := by decide
  fields := rfl
  lengths := by decide
  aliases := by decide
  firstAliases := by decide
  aliasesNotBlank := by simp only [exists_not_space_iff]; decide
  sizes := by simp only [← isFontSize_iff]; decide +kernel
  modules := by decide
  moduleNames := by simp only [← isModuleName_iff]; decide

end RuleSet

variable {base rules : RuleSet}

/-- What a step preserves: acceptable settings make sound rules of sound rules. -/
theorem Overrides.sound_adjust {overrides : Overrides} (hbase : base.Sound)
    (h : overrides.Acceptable base) : (overrides.adjust base).Sound where
  canvas := by
    show 1 ≤ (overrides.canvas.getD base.canvas).width.toNat ∧
      1 ≤ (overrides.canvas.getD base.canvas).height.toNat
    cases hcanvas : overrides.canvas with
    | none => exact hbase.canvas
    | some canvas =>
      obtain ⟨hwidth, hheight⟩ := h.canvas canvas hcanvas
      exact ⟨Nat.pos_of_ne_zero fun hzero => hwidth (UInt32.toNat_inj.1 hzero),
        Nat.pos_of_ne_zero fun hzero => hheight (UInt32.toNat_inj.1 hzero)⟩
  nodeDepth := by
    show 1 ≤ overrides.nodeDepth?.getD base.limits.maxNodeDepth
    have hdepth := h.nodeDepth
    cases hgiven : overrides.nodeDepth? with
    | none => exact hbase.nodeDepth
    | some n =>
      rw [hgiven] at hdepth
      exact Nat.pos_of_ne_zero fun hzero => hdepth (congrArg some hzero)
  children := by
    show 1 ≤ overrides.children?.getD base.limits.maxChildren
    have hchildren := h.children
    cases hgiven : overrides.children? with
    | none => exact hbase.children
    | some n =>
      rw [hgiven] at hchildren
      exact Nat.pos_of_ne_zero fun hzero => hchildren (congrArg some hzero)
  fields := (Overrides.names_maxLengths_adjust h).trans hbase.fields
  lengths := by
    have hnodup : (NamedList.names base.maxLengths).Nodup := by
      rw [hbase.fields]
      decide
    intro entry hentry
    rcases NamedList.mem_of_mem_setAll hnodup (nodup_names_entriesOf _) hentry with hgiven | hold
    · exact Nat.pos_of_ne_zero (h.maxLengths entry hgiven).2
    · exact hbase.lengths entry hold
  aliases := NamedList.nodup_names_setAll hbase.aliases
  firstAliases := by
    -- The aliases that were known keep their places, so the first three stay the first.
    refine hbase.firstAliases.trans ?_
    rw [adjust, NamedList.names_setAll (nodup_names_entriesOf _)]
    exact List.prefix_append ..
  aliasesNotBlank := by
    intro entry hentry
    rcases NamedList.mem_of_mem_setAll hbase.aliases (nodup_names_entriesOf _) hentry with
      hgiven | hold
    · exact RuleSet.exists_not_space_iff.2 (h.fontSizes entry hgiven).1
    · exact hbase.aliasesNotBlank entry hold
  sizes := by
    intro entry hentry
    rcases NamedList.mem_of_mem_setAll hbase.aliases (nodup_names_entriesOf _) hentry with
      hgiven | hold
    · exact RuleSet.isFontSize_iff.1 (h.fontSizes entry hgiven).2
    · exact hbase.sizes entry hold
  modules := by
    show overrides.iconModules.getD base.iconModules ≠ []
    cases hmodules : overrides.iconModules with
    | none => exact hbase.modules
    | some modules => exact (h.iconModules modules hmodules).1
  moduleNames := by
    show ∀ name ∈ overrides.iconModules.getD base.iconModules, _
    cases hmodules : overrides.iconModules with
    | none => exact hbase.moduleNames
    | some modules =>
      exact fun name hname => RuleSet.isModuleName_iff.1 ((h.iconModules modules hmodules).2 name hname)

namespace RuleSet

theorem Reachable.sound (h : rules.Reachable) : rules.Sound := by
  induction h with
  | builtin => exact sound_builtin
  | adjusted overrides _ happly ih =>
    obtain ⟨hacceptable, rfl⟩ := Overrides.apply_eq_ok_iff.1 happly
    exact Overrides.sound_adjust ih hacceptable

/-- Every reachable rule set limits the lengths of the same four fields, in the same order. -/
theorem Reachable.names_maxLengths (h : rules.Reachable) :
    NamedList.names rules.maxLengths = ["id", "content", "condition", "icon_id"] :=
  h.sound.fields

/-- **Rules stay sound along every run of adjustments.**  Whatever overrides are tried one after the
other, beginning with the built-in rules, and whichever of them are refused, the rules that are in
force afterwards are sound. -/
theorem sound_after (steps : List Overrides) : (builtin.after steps).Sound :=
  (Reachable.builtin.after steps).sound

end RuleSet

end PanelLayout
