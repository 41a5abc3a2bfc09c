import PanelLayout.Findings.Expressions
import PanelLayout.Proofs.Expression.Operators
import PanelLayout.Proofs.Grammar.FontSizes

/-!
# The checks of values find nothing exactly where the grammar is kept

One equivalence for each check of a single value: of a coordinate, of a constrained attribute and
of an expression.  Each says when the check finds nothing.

The checks compare doubles where the grammar compares rational numbers.  All bounds are small, so
that it comes to the same: `Constraint.hasSmallBounds_of_mem_table` for those of the table.
-/

namespace PanelLayout

/-! ## §1 Comparison -/

namespace Binary64

theorem isNan_eq_false_of_le {a b : Binary64} (h : a.le b) : b.isNan = false := by
  cases b with
  | nan =>
    rw [le_nan] at h
    cases h
  | _ => rfl

/-- Of two comparable doubles the first is not below the second, or the second is at most the
first. -/
theorem lt_eq_false_iff {a b : Binary64} (ha : a.isNan = false) (hb : b.isNan = false) :
    a.lt b = false ↔ b.le a := by
  obtain ⟨i, hi⟩ := exists_position ha
  obtain ⟨j, hj⟩ := exists_position hb
  simp [lt, le, hi, hj]

theorem isNan_of_isSmall {x : Binary64} (h : x.isSmall = true) : x.isNan = false := by
  cases x with
  | nan => cases h
  | _ => rfl

/-- A double that is neither below, nor above, nor beyond comparison lies between. -/
theorem outside_eq_false_iff {min max px : Binary64} (hmin : min.isNan = false)
    (hmax : max.isNan = false) :
    (px.lt min || max.lt px || px.isNan) = false ↔ min.le px ∧ px.le max := by
  simp only [Bool.or_eq_false_iff]
  constructor
  · rintro ⟨⟨hlow, hhigh⟩, hpx⟩
    exact ⟨(lt_eq_false_iff hpx hmin).1 hlow, (lt_eq_false_iff hmax hpx).1 hhigh⟩
  · rintro ⟨hlow, hhigh⟩
    have hpx : px.isNan = false := isNan_eq_false_of_le hlow
    exact ⟨⟨(lt_eq_false_iff hpx hmin).2 hlow, (lt_eq_false_iff hmax hpx).2 hhigh⟩, hpx⟩

/-- A side of the canvas is far below the numbers that are no doubles. -/
theorem side_lt (side : UInt32) : side.toNat < Nat.pow 2 52 := by
  have hlimit : Nat.pow 2 32 < Nat.pow 2 52 := by decide
  exact Nat.lt_trans side.toNat_lt hlimit

theorem isSmall_side (side : UInt32) : (ofNat side.toNat).isSmall = true :=
  isSmall_ofNat (side_lt side)

theorem toRat_side (side : UInt32) : (ofNat side.toNat).toRat = side.toNat :=
  toRat_ofNat (Nat.lt_trans (side_lt side) (by decide))

end Binary64

namespace Number

variable {n : Number} {min : Binary64} {max : Option Binary64}

theorem zero_le_iff : Binary64.zero.le n.toBinary64 = true ↔ n.AtLeast 0 := by
  rw [Binary64.le_toBinary64_iff Binary64.isSmall_zero, Binary64.toRat_zero]

theorem le_side_iff (side : UInt32) :
    n.toBinary64.le (.ofNat side.toNat) = true ↔ n.AtMost side.toNat := by
  rw [Binary64.toBinary64_le_iff (Binary64.isSmall_side side), Binary64.toRat_side]

theorem inRange_iff (hmin : min.isSmall = true) (hmax : ∀ top ∈ max, top.isSmall = true) :
    (min.le n.toBinary64 && max.all n.toBinary64.le) = true ↔
      n.InRange min.toRat (max.map Binary64.toRat) := by
  rw [Bool.and_eq_true, Binary64.le_toBinary64_iff hmin]
  cases max with
  | none => simp [inRange_none_iff]
  | some top =>
    rw [Option.all_some, Binary64.toBinary64_le_iff (hmax top rfl), Option.map_some,
      inRange_some_iff]

end Number

theorem NumericType.accepts_iff {numeric : NumericType} {n : Number} :
    numeric.accepts n = true ↔ (numeric = .integer → ∃ whole, n = .int whole) := by
  cases numeric <;> cases n <;> simp [accepts]

namespace Findings

/-! ## §2 Coordinates -/

theorem ofComponent_eq_nil_iff {name : String} {item : AttrValue} {axis : Axis} :
    ofComponent name item axis = [] ↔ ∃ n, item = .number n ∧ n.AtLeast 0 := by
  unfold ofComponent
  cases item with
  | number n => simp [AttrValue.number?, Number.zero_le_iff]
  | _ => simp [AttrValue.number?]

/-- A number is within a bound if it is in the range from zero to it. -/
theorem isWithin_iff {bound : UInt32} {n : Number} :
    isWithin bound n = true ↔ n.AtLeast 0 ∧ n.AtMost bound.toNat := by
  rw [isWithin, Bool.and_eq_true, Number.zero_le_iff, Number.le_side_iff]

/-- A number of an absolute coordinate is accepted if it lies on the canvas. -/
theorem ofAbsoluteComponent_number_eq_nil_iff {canvas : Canvas} {name : String} {n : Number}
    {axis : Axis} :
    ofAbsoluteComponent canvas name (.number n) axis = [] ↔
      n.AtLeast 0 ∧ n.AtMost (canvasSide canvas axis).toNat := by
  rw [← isWithin_iff]
  simp [ofAbsoluteComponent, AttrValue.number?]

theorem ofCoordinate_eq_nil_iff {rules : RuleSet} {absolute : Bool} {name : String}
    {value : AttrValue} :
    ofCoordinate rules absolute name value = [] ↔ value.IsCoordinate rules (absolute = true) := by
  cases value with
  | list items =>
    match items with
    | [first, second] =>
      -- Only a list of two items passes the check of the shape.
      simp only [ofCoordinate, withAxes, List.length_cons, List.length_nil, List.zip_cons_cons,
        List.zip_nil_left, List.flatMap_cons, List.flatMap_nil, List.append_nil, if_true,
        List.nil_append, List.append_eq_nil_iff, ofComponent_eq_nil_iff]
      constructor
      · rintro ⟨⟨⟨x, rfl, hx⟩, y, rfl, hy⟩, hbounds⟩
        refine ⟨x, y, rfl, ⟨hx, ?_⟩, ⟨hy, ?_⟩⟩
        · intro habs
          simp only [habs, decide_true, Bool.and_self, if_true, List.append_eq_nil_iff] at hbounds
          exact (ofAbsoluteComponent_number_eq_nil_iff.1 hbounds.1).2
        · intro habs
          simp only [habs, decide_true, Bool.and_self, if_true, List.append_eq_nil_iff] at hbounds
          exact (ofAbsoluteComponent_number_eq_nil_iff.1 hbounds.2).2
      · rintro ⟨x, y, heq, hx, hy⟩
        obtain ⟨rfl, rfl⟩ : first = .number x ∧ second = .number y := by simpa using heq
        refine ⟨⟨⟨x, rfl, hx.sign⟩, y, rfl, hy.sign⟩, ?_⟩
        split
        · rename_i habs
          -- The bounds are looked at for absolute nodes only.
          have habs : absolute = true := (Bool.and_eq_true _ _ ▸ habs).1
          rw [List.append_eq_nil_iff]
          exact ⟨ofAbsoluteComponent_number_eq_nil_iff.2 ⟨hx.sign, hx.bound habs⟩,
            ofAbsoluteComponent_number_eq_nil_iff.2 ⟨hy.sign, hy.bound habs⟩⟩
        · rfl
    | [] => simp [ofCoordinate, AttrValue.IsCoordinate]
    | [_] => simp [ofCoordinate, AttrValue.IsCoordinate]
    | _ :: _ :: _ :: _ => simp [ofCoordinate, AttrValue.IsCoordinate]
  | _ => simp [ofCoordinate, AttrValue.IsCoordinate]

/-! ## §3 Constraints -/

theorem ofWord_eq_nil_iff {words : List String} {value : AttrValue} :
    ofWord words value = [] ↔ ∃ word ∈ words, value = .text word := by
  unfold ofWord
  cases value <;> simp [AttrValue.text?]

/-- A number is accepted if it is of the type and in the range. -/
theorem ofRange_eq_nil_iff {numeric : NumericType} {min : Binary64} {max : Option Binary64}
    {value : AttrValue} (hmin : min.isSmall = true) (hmax : ∀ top ∈ max, top.isSmall = true) :
    ofRange numeric min max value = [] ↔
      ∃ n, value = .number n ∧ (numeric = .integer → ∃ whole, n = .int whole) ∧
        n.InRange min.toRat (max.map Binary64.toRat) := by
  cases value with
  | number n =>
    simp only [AttrValue.number.injEq, exists_eq_left', ← NumericType.accepts_iff,
      ← Number.inRange_iff hmin hmax]
    by_cases haccepts : numeric.accepts n
    · have hfilter : (AttrValue.number n).number?.filter numeric.accepts = some n := by
        simp [AttrValue.number?, haccepts]
      simp [ofRange, hfilter, haccepts]
    · -- A number of the wrong type counts as none.
      have hfilter : (AttrValue.number n).number?.filter numeric.accepts = none := by
        simp [AttrValue.number?, haccepts]
      simp [ofRange, hfilter, haccepts]
  | _ => simp [ofRange, AttrValue.number?]

theorem ofFontSize_eq_nil_iff {rules : RuleSet} {min max : Binary64} {value : AttrValue}
    (hmin : min.isSmall = true) (hmax : max.isSmall = true) :
    ofFontSize rules min max value = [] ↔ FontSize.Fits rules min.toRat max.toRat value := by
  rw [← FontSize.exists_px_iff hmin hmax, ofFontSize]
  cases hresolve : FontSize.resolve? rules value with
  | none => simp
  | some px =>
    simp only [Option.some.injEq, exists_eq_left',
      ← Binary64.outside_eq_false_iff (Binary64.isNan_of_isSmall hmin)
        (Binary64.isNan_of_isSmall hmax)]
    cases (px.lt min || max.lt px || px.isNan) <;> simp

end Findings

namespace Constraint

/-- A row of the table is the only one of its name. -/
theorem of?_eq_some_iff {name : String} {constraint : Constraint} :
    of? name = some constraint ↔ (name, constraint) ∈ table :=
  ⟨NamedList.mem_of_lookup, NamedList.lookup_of_mem (by decide)⟩

/-- The bounds of the constraint are small. -/
def hasSmallBounds : Constraint → Bool
  | .range _ min max => min.isSmall && max.all (·.isSmall)
  | .fontSize min max => min.isSmall && max.isSmall
  | _ => true

theorem hasSmallBounds_of_mem_table {name : String} {constraint : Constraint}
    (h : (name, constraint) ∈ table) : constraint.hasSmallBounds = true := by
  have hall : ∀ row ∈ table, row.2.hasSmallBounds = true := by decide +kernel
  exact hall _ h

end Constraint

namespace Findings

theorem ofConstraint_eq_nil_iff {rules : RuleSet} {constraint : Constraint} {value : AttrValue}
    (h : constraint.hasSmallBounds = true) :
    ofConstraint rules constraint value = [] ↔ constraint.Admits rules value := by
  cases constraint with
  | oneOf words => exact ofWord_eq_nil_iff
  | range numeric min max =>
    rw [Constraint.hasSmallBounds, Bool.and_eq_true] at h
    exact ofRange_eq_nil_iff h.1 ((Option.all_eq_true _ _).1 h.2)
  | boolean =>
    cases value <;> simp [ofConstraint, ofBoolean, Constraint.Admits]
  | canvasWidth =>
    -- The range is one of integers, so that the number is an integer.
    have hsmall : ∀ top ∈ some (Binary64.ofNat rules.canvas.width.toNat), top.isSmall = true := by
      intro top htop
      rw [← Option.mem_some_iff.1 htop]
      exact Binary64.isSmall_side _
    rw [ofConstraint, ofRange_eq_nil_iff Binary64.isSmall_zero hsmall, Binary64.toRat_zero,
      Option.map_some, Binary64.toRat_side]
    constructor
    · rintro ⟨n, rfl, hwhole, hn⟩
      obtain ⟨whole, rfl⟩ := hwhole rfl
      rw [Number.inRange_some_iff, Number.atLeast_zero_int_iff, Number.atMost_int_iff] at hn
      exact ⟨whole, rfl, hn⟩
    · rintro ⟨whole, rfl, hn⟩
      rw [← Number.atLeast_zero_int_iff, ← Number.atMost_int_iff, ← Number.inRange_some_iff] at hn
      exact ⟨.int whole, rfl, fun _ => ⟨whole, rfl⟩, hn⟩
  | fontSize min max =>
    rw [Constraint.hasSmallBounds, Bool.and_eq_true] at h
    exact ofFontSize_eq_nil_iff h.1 h.2

/-! ## §4 Expressions -/

variable {rules : RuleSet} {field raw : String}

theorem ofBlank_eq_nil_iff :
    ofBlank field raw = [] ↔
      (field = "content" ∨ field = "icon_id" → ∃ c ∈ raw.toList, ¬ Text.IsWhite c) := by
  have hblank : Text.isBlank raw = true ↔ ¬ ∃ c ∈ raw.toList, ¬ Text.IsWhite c := by
    simp [Text.isBlank, Text.isSpace_iff]
  simp only [ofBlank, ite_eq_right_iff, List.cons_ne_nil, imp_false, not_and, hblank, not_not]
  simp only [nonBlankFields, List.mem_cons, List.not_mem_nil, or_false]

theorem ofExpressionDepth_eq_nil_iff :
    ofExpressionDepth rules raw = [] ↔
      ∀ stretch, stretch <:+: (Expression.withoutEscapes raw.toList).map Expression.braceValue →
        stretch.sum ≤ rules.limits.maxExpressionDepth := by
  have hdepth : ofExpressionDepth rules raw = [] ↔
      (Expression.nestingDepth raw : ℤ) ≤ rules.limits.maxExpressionDepth := by
    simp [ofExpressionDepth]
  rw [hdepth, Expression.nestingDepth,
    isLUB_le_iff (Expression.isGreatest_depthFrom raw.toList).isLUB]
  constructor
  · exact fun h stretch hstretch => h ⟨stretch, hstretch, rfl⟩
  · rintro h _ ⟨stretch, hstretch, rfl⟩
    exact h stretch hstretch

/-- A segment is accepted if no operator is written in it. -/
theorem ofSegment_eq_nil_iff {inside : List Char} :
    ofSegment (String.ofList (Expression.unescapeOperators inside)) = [] ↔
      ∀ operator ∈ ['+', '-', '*', '/', '%', '?'], operator ∉ inside := by
  rw [Expression.ofSegment_unescapeOperators, List.map_eq_nil_iff, List.filter_eq_nil_iff]
  simp only [decide_eq_true_iff, Expression.forbiddenOperators]

theorem ofSegments_eq_nil_iff :
    (Expression.segments raw).flatMap ofSegment = [] ↔
      ∀ division : Expression.Division, division.text = raw.toList → division.IsOutermost →
        ∀ part ∈ division.parts, ∀ operator ∈ ['+', '-', '*', '/', '%', '?'],
          operator ∉ part.inside := by
  -- What is found on the segments of any division is what is found on those of the text.
  have hdivision : ∀ division : Expression.Division, division.text = raw.toList →
      division.IsOutermost →
        ((Expression.segments raw).flatMap ofSegment = [] ↔
          ∀ part ∈ division.parts, ∀ operator ∈ ['+', '-', '*', '/', '%', '?'],
            operator ∉ part.inside) := by
    intro division htext houtermost
    rw [Expression.segments, ← htext, Expression.Division.rawSegments_text houtermost, List.map_map,
      List.flatMap_map, List.flatMap_eq_nil_iff]
    exact forall₂_congr fun part _ => ofSegment_eq_nil_iff
  constructor
  · exact fun h division htext houtermost => (hdivision division htext houtermost).1 h
  · intro h
    obtain ⟨division, htext, houtermost⟩ := Expression.Division.exists_outermost raw.toList
    exact (hdivision division htext houtermost).2 (h division htext houtermost)

theorem ofModules_eq_nil_iff :
    ofModules rules field raw = [] ↔
      (field = "icon_id" → ∀ place name, IconModule.RefersAt none raw.toList place name →
        name ∈ rules.iconModules) := by
  have hreferences : (∀ name ∈ IconModule.references raw, name ∈ rules.iconModules) ↔
      ∀ place name, IconModule.RefersAt none raw.toList place name → name ∈ rules.iconModules := by
    simp only [IconModule.mem_references_iff, forall_exists_index]
    exact forall_comm
  rw [← hreferences]
  unfold ofModules
  by_cases hfield : field = iconField
  · simp [hfield, RuleSet.isIconModule, iconField]
  · have hname : ¬ field = "icon_id" := hfield
    simp [hfield, hname]

theorem ofExpression_eq_nil_iff {value : AttrValue} :
    ofExpression rules field value = [] ↔ Expression.WellFormed rules field value.render := by
  simp only [ofExpression, List.append_eq_nil_iff, ofBlank_eq_nil_iff,
    ofExpressionDepth_eq_nil_iff, ofSegments_eq_nil_iff, ofModules_eq_nil_iff]
  constructor
  · rintro ⟨⟨⟨hblank, hdepth⟩, hoperators⟩, hmodules⟩
    exact ⟨hblank, hdepth, hoperators, hmodules⟩
  · rintro ⟨hblank, hdepth, hoperators, hmodules⟩
    exact ⟨⟨⟨hblank, hdepth⟩, hoperators⟩, hmodules⟩

end Findings

end PanelLayout
