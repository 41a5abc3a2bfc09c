import PanelLayout.Proofs.Findings.Aspects
import PanelLayout.Proofs.Grammar.Validity
import PanelLayout.Proofs.Numeric.Rounding
import PanelLayout.Proofs.Surroundings

/-!
# Whole numbers are judged as what they are

A number is compared as a double, and a whole number beyond `2⁵³` need not be one.  No check is
misled by that: all bounds are doubles, and so are their neighbours, so that rounding carries no
whole number across one of them.

* `RuleSet.wholeRanges` lists the whole numbers that each numeric attribute takes.
* `Constraint.Takes` is the comparison of a constraint with such a range, and `takes_of_mem` makes
  it for all of them.
* `Findings.mem_ofCoordinate_outOfRange_iff` and `Findings.mem_ofCoordinate_outOfCanvas_iff` say
  what is told of a component that is a whole number.
-/

namespace PanelLayout

/-! ## §1 Ranges -/

/-- The whole numbers from `min` on, up to `max` if there is one. -/
structure WholeRange where
  min : Int
  max : Option Int

/-- The number lies in the range. -/
def WholeRange.Contains (range : WholeRange) (n : Int) : Prop :=
  range.min ≤ n ∧ ∀ top ∈ range.max, n ≤ top

/-- The whole numbers that the numeric attributes take. -/
def RuleSet.wholeRanges (rules : RuleSet) : List (String × WholeRange) :=
  [("font_size", ⟨8, some 64⟩),
    ("max_width", ⟨0, some rules.canvas.width.toNat⟩),
    ("max_lines", ⟨1, some 5⟩),
    ("weight", ⟨1, some 10⟩),
    ("thickness", ⟨1, some 3⟩),
    ("width", ⟨0, none⟩),
    ("height", ⟨0, none⟩)]

theorem WholeRange.contains_some_iff {min top n : Int} :
    WholeRange.Contains ⟨min, some top⟩ n ↔ min ≤ n ∧ n ≤ top := by
  simp [Contains]

theorem WholeRange.contains_none_iff {min n : Int} :
    WholeRange.Contains ⟨min, none⟩ n ↔ min ≤ n := by
  simp [Contains]

/-! ## §2 Constraints -/

namespace Constraint

open Binary64 (exactLimit)

variable {rules : RuleSet} {numeric : NumericType} {low top : Nat} {n : Int}

/-- Of the whole numbers the constraint admits those in the range. -/
def Takes (rules : RuleSet) (constraint : Constraint) (range : WholeRange) : Prop :=
  ∀ n : Int, constraint.Admits rules (.number (.int n)) ↔ range.Contains n

theorem admits_range_int_iff {min : Binary64} {max : Option Binary64} :
    (range numeric min max).Admits rules (.number (.int n)) ↔
      (Number.int n).InRange min.toRat (max.map Binary64.toRat) := by
  constructor
  · rintro ⟨_, ⟨⟩, -, hrange⟩
    exact hrange
  · exact fun hrange => ⟨_, rfl, fun _ => ⟨n, rfl⟩, hrange⟩

/-- Between whole bounds lie the whole numbers that do. -/
theorem inRange_whole_iff (hlow : low < exactLimit) (htop : top < exactLimit) :
    (Number.int n).InRange (Binary64.ofNat low).toRat (some (Binary64.ofNat top).toRat) ↔
      WholeRange.Contains ⟨low, some top⟩ n := by
  rw [Binary64.toRat_ofNat hlow, Binary64.toRat_ofNat htop, Number.inRange_some_iff,
    Number.atLeast_int_iff, Number.atMost_int_iff, WholeRange.contains_some_iff]

theorem takes_between (hlow : low < exactLimit) (htop : top < exactLimit) :
    Takes rules (between numeric low top) ⟨low, some top⟩ := by
  intro n
  rw [between, admits_range_int_iff, Option.map_some, inRange_whole_iff hlow htop]

theorem takes_from_zero : Takes rules (range numeric .zero none) ⟨0, none⟩ := by
  intro n
  rw [admits_range_int_iff, Option.map_none, Binary64.toRat_zero, Number.inRange_none_iff,
    Number.atLeast_zero_int_iff, WholeRange.contains_none_iff]

theorem takes_canvasWidth :
    Takes rules canvasWidth ⟨0, some rules.canvas.width.toNat⟩ := by
  intro n
  simp [Admits, WholeRange.contains_some_iff]

theorem takes_fontSize (hlow : low < exactLimit) (htop : top < exactLimit) :
    Takes rules (fontSize (.ofNat low) (.ofNat top)) ⟨low, some top⟩ := by
  intro n
  rw [← inRange_whole_iff hlow htop]
  constructor
  · rintro ⟨hrange⟩
    exact hrange
  · exact .number

/-- The least weight, which is no whole number. -/
def leastWeight : Binary64 := .ofDecimal false 1 (-4)

theorem leastWeight_pos : 0 < leastWeight.toRat := by
  have hsmall : leastWeight.isSmall = true := by decide +kernel
  have hzero : ¬ leastWeight.le (Number.int 0).toBinary64 = true := by decide +kernel
  rw [Binary64.le_toBinary64_iff hsmall, Number.AtLeast, Int.cast_zero] at hzero
  exact not_le.1 hzero

theorem leastWeight_le_one : leastWeight.toRat ≤ 1 := by
  have hsmall : leastWeight.isSmall = true := by decide +kernel
  have hone : leastWeight.le (Number.int 1).toBinary64 = true := by decide +kernel
  rwa [Binary64.le_toBinary64_iff hsmall, Number.AtLeast, Int.cast_one] at hone

/-- A whole number is no less than the least weight just if it is positive. -/
theorem leastWeight_le_iff : (Number.int n).AtLeast leastWeight.toRat ↔ 1 ≤ n := by
  rw [Number.AtLeast]
  constructor
  · intro hle
    have hpos : (0 : ℚ) < n := lt_of_lt_of_le leastWeight_pos hle
    exact Int.cast_pos.1 hpos
  · intro hone
    have hle : (1 : ℚ) ≤ n := by exact_mod_cast hone
    exact le_trans leastWeight_le_one hle

theorem takes_weight :
    Takes rules (range numeric leastWeight (some (.ofNat 10))) ⟨1, some 10⟩ := by
  intro n
  rw [admits_range_int_iff, Option.map_some, Binary64.toRat_ofNat (by decide),
    Number.inRange_some_iff, WholeRange.contains_some_iff, leastWeight_le_iff,
    Number.atMost_int_iff]
  rfl

/-- Every numeric attribute stands in the table. -/
theorem exists_mem_table {name : String} {range : WholeRange}
    (h : (name, range) ∈ rules.wholeRanges) : ∃ constraint, (name, constraint) ∈ table := by
  have hnames : NamedList.names rules.wholeRanges ⊆ NamedList.names table := by
    show ["font_size", "max_width", "max_lines", "weight", "thickness", "width", "height"] ⊆ _
    decide
  obtain ⟨⟨_, constraint⟩, hrow, rfl⟩ := List.mem_map.1 (hnames (List.mem_map.2 ⟨_, h, rfl⟩))
  exact ⟨constraint, hrow⟩

theorem takes_of_mem {name : String} {range : WholeRange} {constraint : Constraint}
    (hrange : (name, range) ∈ rules.wholeRanges) (hconstraint : (name, constraint) ∈ table) :
    constraint.Takes rules range := by
  have hlookup : table.lookup name = some constraint := of?_eq_some_iff.2 hconstraint
  simp only [RuleSet.wholeRanges, List.mem_cons, Prod.mk.injEq, List.not_mem_nil,
    or_false] at hrange
  rcases hrange with ⟨rfl, rfl⟩ | ⟨rfl, rfl⟩ | ⟨rfl, rfl⟩ | ⟨rfl, rfl⟩ | ⟨rfl, rfl⟩ | ⟨rfl, rfl⟩ |
    ⟨rfl, rfl⟩
  · obtain rfl : fontSize _ _ = constraint := Option.some.inj hlookup
    exact takes_fontSize (by decide) (by decide)
  · obtain rfl : canvasWidth = constraint := Option.some.inj hlookup
    exact takes_canvasWidth
  · obtain rfl : between .integer 1 5 = constraint := Option.some.inj hlookup
    exact takes_between (by decide) (by decide)
  · obtain rfl : range .number _ _ = constraint := Option.some.inj hlookup
    exact takes_weight
  · obtain rfl : between .integer 1 3 = constraint := Option.some.inj hlookup
    exact takes_between (by decide) (by decide)
  · obtain rfl : range .number .zero none = constraint := Option.some.inj hlookup
    exact takes_from_zero
  · obtain rfl : range .number .zero none = constraint := Option.some.inj hlookup
    exact takes_from_zero

end Constraint

/-! ## §3 What is found on a value -/

namespace Findings

variable {rules : RuleSet} {parent : Option Node} {depth : Nat} {node : Node} {name : String}
  {place : Place} {problem : Problem}

theorem ofConstraint_int_eq_nil_iff {range : WholeRange} {constraint : Constraint}
    (hrange : (name, range) ∈ rules.wholeRanges) (hconstraint : (name, constraint) ∈ Constraint.table)
    (n : Int) : ofConstraint rules constraint (.number (.int n)) = [] ↔ range.Contains n := by
  rw [ofConstraint_eq_nil_iff (Constraint.hasSmallBounds_of_mem_table hconstraint)]
  exact Constraint.takes_of_mem hrange hconstraint n

/-- A problem of a constrained value is what the constraint finds. -/
theorem mem_findings_constraint_iff {constraint : Constraint} {value : AttrValue}
    (hconstraint : (name, constraint) ∈ Constraint.table) (hget : node.get? name = some value)
    (hproblem : problem.IsOfValue) :
    ⟨.field name, problem⟩ ∈ node.findings rules parent depth ↔
      problem ∈ ofConstraint rules constraint value := by
  have haspect : (Finding.mk (.field name) problem).aspect? = some .constraints :=
    (hproblem _).trans (congrArg some (aspect_of_mem_table hconstraint))
  rw [Node.mem_findings_iff_of_aspect haspect, Node.findingsOn, ofConstraints_eq_onAttributes,
    mem_onAttributes_iff]
  constructor
  · rintro ⟨⟨name', constraint'⟩, hrow, value', hget', hfinding⟩
    obtain ⟨found, hfound, heq⟩ := List.mem_map.1 hfinding
    cases heq
    -- The row and the value are those of the name.
    have hlookup := Constraint.of?_eq_some_iff.2 hrow
    rw [Constraint.of?_eq_some_iff.2 hconstraint] at hlookup
    cases hlookup
    cases hget.symm.trans hget'
    exact hfound
  · intro hfound
    exact ⟨(name, constraint), hconstraint, value, hget, List.mem_map.2 ⟨problem, hfound, rfl⟩⟩

/-- A problem of a coordinate is what is found on the value of the coordinate. -/
theorem mem_findings_coordinate_iff {value : AttrValue} (hname : name ∈ node.kindTag.coordinates)
    (hget : node.get? name = some value) (hplace : place.name? = some name)
    (hproblem : problem.IsOfValue) :
    ⟨place, problem⟩ ∈ node.findings rules parent depth ↔
      ⟨place, problem⟩ ∈ ofCoordinate rules node.isAbsolute name value := by
  have haspect : (Finding.mk place problem).aspect? = some .coordinates :=
    (hproblem _).trans (congrArg some (aspect_of_mem_coordinates hname hplace))
  rw [Node.mem_findings_iff_of_aspect haspect, Node.findingsOn, ofCoordinates_eq_onAttributes,
    mem_onAttributes_iff]
  constructor
  · rintro ⟨name', -, value', hget', hfinding⟩
    -- The place tells which coordinate it is.
    have hplace' := (place_of_mem_ofCoordinate hfinding).1
    obtain rfl : name' = name := Option.some.inj (hplace'.symm.trans hplace)
    cases hget.symm.trans hget'
    exact hfinding
  · intro hfinding
    exact ⟨name, hname, value, hget, hfinding⟩

/-! ## §4 Components -/

variable {items : List AttrValue} {item : AttrValue} {axis : Axis} {n : Int}

/-- There is one component for each axis. -/
theorem eq_of_mem_withAxes {other : AttrValue} (h : (item, axis) ∈ withAxes items)
    (hother : (other, axis) ∈ withAxes items) : other = item := by
  unfold withAxes at h hother
  match items with
  | [] => simp at h
  | [first] => simp_all
  | first :: second :: rest =>
    cases axis <;> simp_all

/-- What is found at a component was found on it. -/
theorem mem_flatMap_withAxes_iff {check : AttrValue → Axis → List Finding}
    (hcheck : ∀ item axis finding, finding ∈ check item axis →
      finding.place = .component name axis)
    (hitem : (item, axis) ∈ withAxes items) :
    ⟨.component name axis, problem⟩ ∈ (withAxes items).flatMap (fun (item, axis) => check item axis) ↔
      ⟨.component name axis, problem⟩ ∈ check item axis := by
  rw [List.mem_flatMap]
  constructor
  · rintro ⟨⟨other, axis'⟩, hother, hfinding⟩
    cases hcheck _ _ _ hfinding
    rwa [eq_of_mem_withAxes hitem hother] at hfinding
  · intro hfinding
    exact ⟨(item, axis), hitem, hfinding⟩

theorem mem_judgeSigns_iff (hitem : (item, axis) ∈ withAxes items) :
    ⟨.component name axis, problem⟩ ∈ judgeSigns name items ↔
      ⟨.component name axis, problem⟩ ∈ ofComponent name item axis :=
  mem_flatMap_withAxes_iff
    (fun item axis _ h => ((atMostOne_ofComponent name item axis).of_mem h).place) hitem

theorem mem_judgeBounds_iff {canvas : Canvas} {absolute : Bool} (hlength : items.length = 2)
    (hitem : (item, axis) ∈ withAxes items) :
    ⟨.component name axis, problem⟩ ∈ judgeBounds canvas absolute name items ↔
      absolute = true ∧
        ⟨.component name axis, problem⟩ ∈ ofAbsoluteComponent canvas name item axis := by
  rw [← mem_flatMap_withAxes_iff
    (fun item axis _ h => ((atMostOne_ofAbsoluteComponent canvas name item axis).of_mem h).place)
    hitem]
  cases absolute <;> simp [judgeBounds, hlength]

theorem mem_ofComponent_int_iff :
    ⟨.component name axis, problem⟩ ∈ ofComponent name (.number (.int n)) axis ↔
      n < 0 ∧ problem = .outOfRange (toString n) ">= 0" := by
  have hzero : Binary64.zero.le (Number.int n).toBinary64 = true ↔ 0 ≤ n := by
    rw [Number.zero_le_iff, Number.atLeast_zero_int_iff]
  rw [ofComponent, AttrValue.number?]
  by_cases hn : 0 ≤ n
  · simp [hzero.2 hn, Int.not_lt.2 hn]
  · have hfalse : ¬ Binary64.zero.le (Number.int n).toBinary64 = true := mt hzero.1 hn
    simp [hfalse, Int.not_le.1 hn, Number.render]

theorem mem_ofAbsoluteComponent_int_iff {canvas : Canvas} :
    ⟨.component name axis, problem⟩ ∈ ofAbsoluteComponent canvas name (.number (.int n)) axis ↔
      ¬ (0 ≤ n ∧ n ≤ (canvasSide canvas axis).toNat) ∧
        problem = .coordinateOutOfCanvas axis (toString n) 0 (canvasSide canvas axis).toNat := by
  have hwithin : isWithin (canvasSide canvas axis) (.int n) = true ↔
      0 ≤ n ∧ n ≤ (canvasSide canvas axis).toNat := by
    rw [isWithin_iff, Number.atLeast_zero_int_iff, Number.atMost_int_iff]
  rw [ofAbsoluteComponent, AttrValue.number?]
  by_cases hn : 0 ≤ n ∧ n ≤ (canvasSide canvas axis).toNat
  · simp [hwithin.2 hn, hn]
  · have hfalse : ¬ isWithin (canvasSide canvas axis) (.int n) = true := mt hwithin.1 hn
    simp [hfalse, hn, Number.render]

/-- A component that is a whole number is told to be out of range just if it is negative. -/
theorem mem_ofCoordinate_outOfRange_iff {absolute : Bool} {value range : String}
    (hitem : (.number (.int n), axis) ∈ withAxes items) :
    ⟨.component name axis, .outOfRange value range⟩ ∈ ofCoordinate rules absolute name (.list items) ↔
      n < 0 ∧ value = toString n ∧ range = ">= 0" := by
  have hshape : ⟨.component name axis, .outOfRange value range⟩ ∉ judgeShape name items := by
    simp [judgeShape]
  have hbounds : ⟨.component name axis, .outOfRange value range⟩ ∉
      judgeBounds rules.canvas absolute name items := by
    intro h
    obtain ⟨_, hconcerns⟩ := concernsComponent_of_mem_judgeBounds h
    cases hconcerns.outside
  rw [ofCoordinate_list, List.mem_append, List.mem_append, mem_judgeSigns_iff hitem,
    mem_ofComponent_int_iff, Problem.outOfRange.injEq]
  simp [hshape, hbounds]

/-- A component that is a whole number is told to lie outside the canvas just if it does, and the
node is placed absolutely. -/
theorem mem_ofCoordinate_outOfCanvas_iff {absolute : Bool} {named : Axis} {value : String}
    {min max : Nat} (hlength : items.length = 2)
    (hitem : (.number (.int n), axis) ∈ withAxes items) :
    ⟨.component name axis, .coordinateOutOfCanvas named value min max⟩ ∈
        ofCoordinate rules absolute name (.list items) ↔
      absolute = true ∧ ¬ (0 ≤ n ∧ n ≤ (canvasSide rules.canvas axis).toNat) ∧ named = axis ∧
        value = toString n ∧ min = 0 ∧ max = (canvasSide rules.canvas axis).toNat := by
  have hshape : ⟨.component name axis, .coordinateOutOfCanvas named value min max⟩ ∉
      judgeShape name items := by
    simp [judgeShape]
  have hsigns : ⟨.component name axis, .coordinateOutOfCanvas named value min max⟩ ∉
      judgeSigns name items := by
    intro h
    obtain ⟨_, hconcerns⟩ := concernsComponent_of_mem_judgeSigns h
    cases hconcerns.outside
  rw [ofCoordinate_list, List.mem_append, List.mem_append, mem_judgeBounds_iff hlength hitem,
    mem_ofAbsoluteComponent_int_iff, Problem.coordinateOutOfCanvas.injEq]
  simp [hshape, hsigns]

end Findings

/-! ## §5 What a layout is told -/

/-- **Whole numbers are judged as what they are.**  Each check of a numeric attribute admits exactly
the whole numbers of its range, whatever rounding makes of them.  So a layout is told of a problem at
a numeric attribute of a node exactly if the number there is out of the range; and at a component of
a coordinate exactly if the number is negative or, on a node placed absolutely, off the canvas. -/
theorem Node.validate_wholeNumber (rules : RuleSet) (n : Int) :
    (∀ name range constraint, (name, range) ∈ rules.wholeRanges →
      (name, constraint) ∈ Constraint.table →
        (Findings.ofConstraint rules constraint (.number (.int n)) = [] ↔ range.Contains n)) ∧
    ∀ (root node : Node) (stop : Stop), root.start.LeadsTo stop → stop.entry = .node node →
      (∀ name range, (name, range) ∈ rules.wholeRanges → node.get? name = some (.number (.int n)) →
        ((∃ problem : Problem, problem.IsOfValue ∧
            ⟨⟨stop.address, .field name⟩, problem⟩ ∈ root.validate rules) ↔ ¬ range.Contains n)) ∧
      ∀ name ∈ node.kindTag.coordinates, ∀ items, node.get? name = some (.list items) →
        items.length = 2 → ∀ axis, (.number (.int n), axis) ∈ Findings.withAxes items →
          (∀ value range, ⟨⟨stop.address, .component name axis⟩, .outOfRange value range⟩ ∈
              root.validate rules ↔
            n < 0 ∧ value = toString n ∧ range = ">= 0") ∧
          ∀ named value min max,
            ⟨⟨stop.address, .component name axis⟩, .coordinateOutOfCanvas named value min max⟩ ∈
                root.validate rules ↔
              node.SaysAbsolute ∧ ¬ (0 ≤ n ∧ n ≤ (Findings.canvasSide rules.canvas axis).toNat) ∧
                named = axis ∧ value = toString n ∧ min = 0 ∧
                max = (Findings.canvasSide rules.canvas axis).toNat := by
  refine ⟨fun name range constraint hrange hconstraint =>
    Findings.ofConstraint_int_eq_nil_iff hrange hconstraint n, ?_⟩
  intro root node stop hstop hnode
  refine ⟨?attributes, ?components⟩
  case attributes =>
    intro name range hrange hget
    obtain ⟨constraint, hconstraint⟩ := Constraint.exists_mem_table hrange
    rw [← Findings.ofConstraint_int_eq_nil_iff hrange hconstraint n,
      List.eq_nil_iff_forall_not_mem, not_forall_not]
    refine exists_congr fun problem => ?_
    rw [Stop.mem_validate_iff_of_node hstop hnode]
    constructor
    · rintro ⟨hproblem, hfinding⟩
      exact (Findings.mem_findings_constraint_iff hconstraint hget hproblem).1 hfinding
    · intro hfound
      have hproblem := (Findings.atMostOne_ofConstraint rules constraint _).of_mem hfound
      exact ⟨hproblem, (Findings.mem_findings_constraint_iff hconstraint hget hproblem).2 hfound⟩
  case components =>
    intro name hname items hget hlength axis hitem
    refine ⟨fun value range => ?_, fun named value min max => ?_⟩
    · rw [Stop.mem_validate_iff_of_node hstop hnode,
        Findings.mem_findings_coordinate_iff hname hget rfl fun _ => rfl,
        Findings.mem_ofCoordinate_outOfRange_iff hitem]
    · rw [Stop.mem_validate_iff_of_node hstop hnode,
        Findings.mem_findings_coordinate_iff hname hget rfl fun _ => rfl,
        Findings.mem_ofCoordinate_outOfCanvas_iff hlength hitem, Node.isAbsolute_iff]

/-- A text with a number that is no double, `2⁵³ + 1`, for its width and for a coordinate. -/
def Node.hugeText : Node :=
  ⟨[("type", .text "text"), ("is_absolute", .bool true), ("width", .number (.int 9007199254740993)),
    ("max_width", .number (.int 9007199254740993)),
    ("position", .list [.number (.int 9007199254740993), .number (.int 0)])]⟩

/-- The number is wide enough for a width, too wide for a text, and off the canvas. -/
theorem Node.validate_hugeText :
    hugeText.start.LeadsTo hugeText.start ∧
      (¬ ∃ problem : Problem, problem.IsOfValue ∧
        ⟨⟨.root, .field "width"⟩, problem⟩ ∈ hugeText.validate .builtin) ∧
      (∃ problem : Problem, problem.IsOfValue ∧
        ⟨⟨.root, .field "max_width"⟩, problem⟩ ∈ hugeText.validate .builtin) ∧
      ⟨⟨.root, .component "position" .x⟩, .coordinateOutOfCanvas .x "9007199254740993" 0 800⟩ ∈
        hugeText.validate .builtin := by
  obtain ⟨-, hreported⟩ := validate_wholeNumber .builtin 9007199254740993
  obtain ⟨hattributes, hcomponents⟩ := hreported hugeText hugeText hugeText.start .refl rfl
  refine ⟨.refl, ?_, ?_, ?_⟩
  · refine mt (hattributes "width" ⟨0, none⟩ (by simp [RuleSet.wholeRanges]) rfl).1 ?_
    simp [WholeRange.Contains]
  · refine (hattributes "max_width" ⟨0, some 800⟩ ?_ rfl).2 ?_
    · exact List.mem_cons_of_mem _ (List.mem_cons_self ..)
    · simp [WholeRange.Contains]
  · obtain ⟨-, hcanvas⟩ := hcomponents "position" (by decide) _ rfl rfl .x (List.mem_cons_self ..)
    refine (hcanvas .x "9007199254740993" 0 800).2 ⟨rfl, ?_, rfl, by decide, rfl, rfl⟩
    decide

end PanelLayout
