import PanelLayout.Findings.Values
import PanelLayout.Proofs.Rules.Reachable

/-!
# Aliases of font sizes

An adjustment that is accepted makes every alias that it names known, with the size that it gives.
Whether a document can use the alias is another matter: a text that ends in `px` is read as a
number of pixels and is never looked up.

`FontSize.resolve?_alias_iff` says which aliases come to their size: all that do not end in `px`,
and of those that do the ones that spell their own size.
-/

namespace PanelLayout

/-! ## §1 What is known after an adjustment -/

namespace Overrides

variable {name : String} {px : Binary64}

/-- The adjustment that gives one alias a size. -/
def ofFontSize (name : String) (px : Binary64) : Overrides :=
  { Overrides.none with fontSizes := .some (NameTable.empty.insert name px) }

/-- A good size for one alias is accepted, and changes nothing else. -/
theorem apply_ofFontSize (base : RuleSet) (hname : Text.isBlank name = false)
    (hpx : isFontSize px = true) :
    (ofFontSize name px).apply base =
      .ok { base with fontSizes := NamedList.set name px base.fontSizes } := by
  apply apply_of_forall_good
  intro setting hsetting
  -- The size is the only setting.
  rw [List.mem_singleton.1 hsetting]
  exact ⟨hname, hpx⟩

/-- An alias that an accepted adjustment names is known, and its size is finite. -/
theorem fontSize?_of_apply {overrides : Overrides} {base rules : RuleSet}
    (happly : overrides.apply base = .ok rules)
    (hmem : (name, px) ∈ entriesOf overrides.fontSizes) :
    rules.fontSize? name = some px ∧ px.isFinite = true := by
  obtain ⟨hacceptable, rfl⟩ := apply_eq_ok_iff.1 happly
  have hnodup := nodup_names_entriesOf overrides.fontSizes
  refine ⟨?_, ?_⟩
  · have hgiven : (entriesOf overrides.fontSizes).lookup name = some px :=
      NamedList.lookup_of_mem hnodup hmem
    rw [RuleSet.fontSize?, adjust, NamedList.lookup_setAll hnodup, hgiven]
    rfl
  · have hsize := (hacceptable.fontSizes _ hmem).2
    rw [isFontSize, Bool.and_eq_true] at hsize
    exact hsize.1

end Overrides

/-! ## §2 What a text comes to -/

namespace FontSize

theorem beforePx?_eq_some_iff {cs front : List Char} :
    beforePx? cs = some front ↔ cs = front ++ ['p', 'x'] := by
  unfold beforePx?
  split
  · rename_i rest hreverse
    have hcs : cs = rest.reverse ++ ['p', 'x'] := by
      rw [← List.reverse_reverse cs, hreverse]
      simp
    rw [Option.some.injEq, hcs, List.append_cancel_right_eq]
  · rename_i hother
    simp only [reduceCtorEq, false_iff]
    rintro rfl
    exact hother front.reverse (by simp)

/-- A text that ends in `px` comes to the number before it, whatever the rules know. -/
theorem ofText?_of_px {rules : RuleSet} {text : String} {front : List Char}
    (h : text.toList = front ++ ['p', 'x']) :
    ofText? rules text =
      (Binary64.ofLiteral? (String.ofList (Text.trim front))).filter (·.isFinite) := by
  rw [ofText?, beforePx?_eq_some_iff.2 h]

/-- Any other text is looked up. -/
theorem ofText?_of_not_px {rules : RuleSet} {text : String}
    (h : ∀ front, text.toList ≠ front ++ ['p', 'x']) :
    ofText? rules text = rules.fontSize? text := by
  have hnone : beforePx? text.toList = none :=
    Option.eq_none_iff_forall_ne_some.2 fun front heq => h front (beforePx?_eq_some_iff.1 heq)
  rw [ofText?, hnone]

variable {overrides : Overrides} {base rules : RuleSet} {name : String} {px : Binary64}

/-- **Which aliases are usable.**  Let an accepted adjustment give an alias a size.  Under the
adjusted rules the alias comes to that size if and only if it does not end in `px`, or is itself a
number of pixels that comes to it.  A document that uses an alias which does come to its size is
told about it only if that size is out of range. -/
theorem resolve?_alias_iff (happly : overrides.apply base = .ok rules)
    (hmem : (name, px) ∈ Overrides.entriesOf overrides.fontSizes) :
    (resolve? rules (.text name) = some px ↔
      ∀ front, name.toList = front ++ ['p', 'x'] →
        Binary64.ofLiteral? (String.ofList (Text.trim front)) = some px) ∧
    (resolve? rules (.text name) = some px → ∀ min max,
      Findings.ofFontSize rules min max (.text name) =
        if px.lt min || max.lt px then [.fontSizeOutOfRange px.render min max] else []) := by
  obtain ⟨hknown, hfinite⟩ := Overrides.fontSize?_of_apply happly hmem
  constructor
  · constructor
    · intro hresolve front hpx
      rw [resolve?, ofText?_of_px hpx, Option.filter_eq_some_iff] at hresolve
      exact hresolve.1
    · intro hspells
      by_cases hpx : ∃ front, name.toList = front ++ ['p', 'x']
      · obtain ⟨front, hpx⟩ := hpx
        rw [resolve?, ofText?_of_px hpx, hspells front hpx]
        exact Option.filter_eq_some_iff.2 ⟨rfl, hfinite⟩
      · rw [resolve?, ofText?_of_not_px (not_exists.1 hpx), hknown]
  · intro hresolve min max
    -- A finite size is a number, so only the range is left to judge.
    have hnan : px.isNan = false := by
      cases px with
      | finite negative units => rfl
      | _ => simp [Binary64.isFinite] at hfinite
    rw [Findings.ofFontSize, hresolve]
    simp only [hnan, Bool.or_false]

/-- An alias that does not end in `px` comes to its size. -/
theorem resolve?_xLarge :
    ∃ rules, (Overrides.ofFontSize "XLarge" (.ofNat 48)).apply .builtin = .ok rules ∧
      resolve? rules (.text "XLarge") = some (.ofNat 48) := by
  have hname : Text.isBlank "XLarge" = false := by decide
  have hsize : Overrides.isFontSize (.ofNat 48) = true := by decide +kernel
  have happly := Overrides.apply_ofFontSize .builtin hname hsize
  refine ⟨_, happly, (resolve?_alias_iff happly (List.mem_singleton.2 rfl)).1.2 ?_⟩
  intro front hpx
  have hnone : beforePx? "XLarge".toList = none := by decide
  rw [beforePx?_eq_some_iff.2 hpx] at hnone
  cases hnone

/-- The alias `xpx` is accepted, and no text comes to its size by it. -/
theorem resolve?_xpx :
    ∃ rules, RuleSet.builtin.Reachable ∧
      (Overrides.ofFontSize "xpx" (.ofNat 20)).apply .builtin = .ok rules ∧
      ("xpx", .ofNat 20) ∈ Overrides.entriesOf (Overrides.ofFontSize "xpx" (.ofNat 20)).fontSizes ∧
      resolve? rules (.text "xpx") = none := by
  have hname : Text.isBlank "xpx" = false := by decide
  have hsize : Overrides.isFontSize (.ofNat 20) = true := by decide +kernel
  have happly := Overrides.apply_ofFontSize .builtin hname hsize
  have hpx : "xpx".toList = ['x'] ++ ['p', 'x'] := by decide
  have hliteral : Binary64.ofLiteral? (String.ofList (Text.trim ['x'])) = none := by decide +kernel
  refine ⟨_, .builtin, happly, List.mem_singleton.2 rfl, ?_⟩
  rw [resolve?, ofText?_of_px hpx, hliteral]
  rfl

end FontSize

end PanelLayout
