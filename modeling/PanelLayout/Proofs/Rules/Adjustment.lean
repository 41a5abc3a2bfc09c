import PanelLayout.Proofs.Rules.Settings

/-!
# What an adjustment comes to

Overrides are applied section by section, and each section may refuse a setting.  Here the two
sides of that are set apart: `Overrides.Acceptable` says of the settings what they must be, and
`Overrides.adjust` gives the adjusted rules without looking at that.

`Overrides.apply_eq_verdict` says that overrides are applied by looking at their settings one after
the other, and `Overrides.apply_eq_ok_iff` what comes of it if none is refused.  What adjusted rules
have in common, and how one adjustment follows another, is proved of `adjust` alone.
-/

namespace PanelLayout

namespace Overrides

variable {base rules : RuleSet}

/-! ## §1 Settings and the rules they make -/

def nodeDepth? (overrides : Overrides) : Option Nat := overrides.limits.bind (·.maxNodeDepth)

def children? (overrides : Overrides) : Option Nat := overrides.limits.bind (·.maxChildren)

def expressionDepth? (overrides : Overrides) : Option Nat :=
  overrides.limits.bind (·.maxExpressionDepth)

/-- What the settings of overrides must be, each of them if it is given. -/
structure Acceptable (overrides : Overrides) (base : RuleSet) : Prop where
  canvas : ∀ canvas, overrides.canvas = .some canvas → canvas.width ≠ 0 ∧ canvas.height ≠ 0
  fontSizes : ∀ entry ∈ entriesOf overrides.fontSizes,
    Text.isBlank entry.1 = false ∧ isFontSize entry.2 = true
  iconModules : ∀ modules, overrides.iconModules = .some modules →
    modules ≠ [] ∧ ∀ name ∈ modules, isModuleName name = true
  nodeDepth : overrides.nodeDepth? ≠ .some 0
  children : overrides.children? ≠ .some 0
  /-- A field must be limited already, and its limit must not be zero. -/
  maxLengths : ∀ entry ∈ entriesOf overrides.maxLengths,
    entry.1 ∈ NamedList.names base.maxLengths ∧ entry.2 ≠ 0

/-- The rules with every given setting in the place of the old one. -/
def adjust (overrides : Overrides) (base : RuleSet) : RuleSet where
  canvas := overrides.canvas.getD base.canvas
  limits :=
    { maxNodeDepth := overrides.nodeDepth?.getD base.limits.maxNodeDepth
      maxChildren := overrides.children?.getD base.limits.maxChildren
      maxExpressionDepth := overrides.expressionDepth?.getD base.limits.maxExpressionDepth }
  maxLengths := NamedList.setAll base.maxLengths (entriesOf overrides.maxLengths)
  fontSizes := NamedList.setAll base.fontSizes (entriesOf overrides.fontSizes)
  iconModules := overrides.iconModules.getD base.iconModules

theorem nodup_names_entriesOf {α : Type} (table : Option (NameTable α)) :
    (NamedList.names (entriesOf table)).Nodup := by
  cases table with
  | none => exact List.nodup_nil
  | some table => exact table.nodup_names

theorem sorted_entriesOf {α : Type} (table : Option (NameTable α)) :
    (entriesOf table).Pairwise (·.1 < ·.1) := by
  cases table with
  | none => exact List.Pairwise.nil
  | some table => exact table.sorted

/-! ## §2 All settings -/

/-- The settings in the order in which they are looked at; a table keeps its names in ascending order.
How deep expressions may be nested is not among them, since any depth will do. -/
def settings (overrides : Overrides) : List Setting :=
  overrides.canvas.toList.map .canvas ++
    ((entriesOf overrides.fontSizes).map fontSizeSetting ++
      (moduleSettings overrides.iconModules ++
        (limitSettings overrides.limits ++
          (entriesOf overrides.maxLengths).map lengthSetting)))

/-- Overrides are applied by looking at their settings one after the other. -/
theorem apply_eq_verdict (overrides : Overrides) (base : RuleSet) :
    overrides.apply base =
      verdict (NamedList.names base.maxLengths) (overrides.adjust base) overrides.settings := by
  rw [apply, settings, ← List.append_nil ((entriesOf overrides.maxLengths).map lengthSetting)]
  apply bind_eq_verdict (applyCanvas_eq_verdict overrides.canvas)
  apply bind_eq_verdict (applyFontSizes_eq_verdict ..)
  apply bind_eq_verdict (applyIconModules_eq_verdict overrides.iconModules)
  apply bind_eq_verdict (applyLimits_eq_verdict overrides.limits)
  exact bind_eq_verdict (applyMaxLengths_eq_verdict ..) rfl

theorem forall_good_canvas {limited : List String} {canvas : Option Canvas} :
    (∀ setting ∈ canvas.toList.map Setting.canvas, setting.Good limited) ↔
      ∀ given, canvas = .some given → given.width ≠ 0 ∧ given.height ≠ 0 := by
  rw [List.forall_mem_map]
  simp [Setting.Good]

theorem forall_good_moduleSettings {limited : List String} {modules : Option (List String)} :
    (∀ setting ∈ moduleSettings modules, setting.Good limited) ↔
      ∀ given, modules = .some given → given ≠ [] ∧ ∀ name ∈ given, isModuleName name = true := by
  cases modules with
  | none => simp [moduleSettings]
  | some given =>
    rw [moduleSettings, List.forall_mem_cons, List.forall_mem_map]
    simp [Setting.Good]

theorem forall_good_positive {limited : List String} (setting : Nat → Setting)
    (hgood : ∀ n, (setting n).Good limited ↔ n ≠ 0) {given : Option Nat} :
    (∀ other ∈ given.toList.map setting, other.Good limited) ↔ given ≠ .some 0 := by
  cases given <;> simp [hgood]

/-- The settings are what they must be if and only if the overrides are acceptable. -/
theorem forall_good_iff {overrides : Overrides} :
    (∀ setting ∈ overrides.settings, setting.Good (NamedList.names base.maxLengths)) ↔
      overrides.Acceptable base := by
  simp only [settings, limitSettings, List.forall_mem_append, forall_good_canvas,
    forall_good_moduleSettings,
    forall_good_positive .nodeDepth fun _ => Iff.rfl,
    forall_good_positive .children fun _ => Iff.rfl]
  rw [List.forall_mem_map, List.forall_mem_map]
  apply Iff.intro
  · intro h
    obtain ⟨hcanvas, hsizes, hmodules, ⟨hdepth, hchildren⟩, hlengths⟩ := h
    exact ⟨hcanvas, hsizes, hmodules, hdepth, hchildren, hlengths⟩
  · intro h
    exact ⟨h.canvas, h.fontSizes, h.iconModules, ⟨h.nodeDepth, h.children⟩, h.maxLengths⟩

/-- Overrides are applied exactly if all their settings are acceptable, and then each of them has
taken the place of the old one. -/
theorem apply_eq_ok_iff {overrides : Overrides} :
    overrides.apply base = .ok rules ↔
      overrides.Acceptable base ∧ rules = overrides.adjust base := by
  rw [apply_eq_verdict, verdict_eq_ok_iff, forall_good_iff]

theorem apply_of_forall_good {overrides : Overrides}
    (h : ∀ setting ∈ overrides.settings, setting.Good (NamedList.names base.maxLengths)) :
    overrides.apply base = .ok (overrides.adjust base) :=
  apply_eq_ok_iff.2 ⟨forall_good_iff.1 h, rfl⟩

/-- An adjustment limits the lengths of the same fields as before. -/
theorem names_maxLengths_adjust {overrides : Overrides} (h : overrides.Acceptable base) :
    NamedList.names (overrides.adjust base).maxLengths = NamedList.names base.maxLengths :=
  NamedList.names_setAll_of_known (nodup_names_entriesOf overrides.maxLengths)
    fun entry hentry => (h.maxLengths entry hentry).1

end Overrides

end PanelLayout
