import Mathlib.Data.List.Flatten
import PanelLayout.Proofs.Rules.Reachable
import PanelLayout.Proofs.Walk.Preorder

/-!
# Looser rules find no more

A project may loosen a limit: more depth, more children, longer texts, further icon modules.  Every
check that reads a limit compares with it once, and finds something only beyond it; so under the
looser rules each check finds some of what it found before, and in the same order.

Two findings under different rules are compared in brief, by their places and codes, since their
messages name the limits.

* `Finding.Fewer` is the order on lists of findings, and §3 goes through the checks one by one.
* `Node.validate_sublist_of_loosens` takes it through the walk.
-/

namespace PanelLayout

open scoped List

/-! ## §1 Looser rules -/

/-- Rules that differ from others in their limits and icon modules only, of which they grant no
less. -/
structure RuleSet.Loosens (loose strict : RuleSet) : Prop where
  canvas : loose.canvas = strict.canvas
  fontSizes : ∀ name, loose.fontSize? name = strict.fontSize? name
  nodeDepth : strict.limits.maxNodeDepth ≤ loose.limits.maxNodeDepth
  children : strict.limits.maxChildren ≤ loose.limits.maxChildren
  expressionDepth : strict.limits.maxExpressionDepth ≤ loose.limits.maxExpressionDepth
  /-- A field that both limit may be as long as it might before. -/
  lengths : ∀ field max max', loose.maxLength? field = some max →
    strict.maxLength? field = some max' → max' ≤ max
  iconModules : strict.iconModules ⊆ loose.iconModules

/-! ## §2 Findings in brief -/

/-- A finding in brief: its place and its code. -/
def Finding.brief (finding : Finding) : Place × String := (finding.place, finding.problem.code)

/-- A violation in brief: its path and its code. -/
def Violation.brief (violation : Violation) : String × String :=
  (violation.path, violation.problem.code)

/-- In brief, these findings are some of those, in the same order. -/
def Finding.Fewer (few many : List Finding) : Prop := few.map brief <+ many.map brief

namespace Finding.Fewer

variable {few many few' many' : List Finding}

theorem refl (findings : List Finding) : Fewer findings findings := List.Sublist.refl _

theorem append (h : Fewer few many) (h' : Fewer few' many') :
    Fewer (few ++ few') (many ++ many') := by
  rw [Fewer, List.map_append, List.map_append]
  exact List.Sublist.append h h'

theorem flatMap {α : Type} (items : List α) {few many : α → List Finding}
    (h : ∀ item ∈ items, Fewer (few item) (many item)) :
    Fewer (items.flatMap few) (items.flatMap many) := by
  rw [Fewer, List.map_flatMap, List.map_flatMap]
  exact List.Sublist.flatMap_right items h

/-- Problems at one place are compared by their codes. -/
theorem at_place {few many : List Problem} (place : Place)
    (h : few.map Problem.code <+ many.map Problem.code) :
    Fewer (few.map (⟨place, ·⟩)) (many.map (⟨place, ·⟩)) := by
  have hbrief : ∀ problems : List Problem, (problems.map (Finding.mk place)).map brief =
      (problems.map Problem.code).map (Prod.mk place) := by
    intro problems
    rw [List.map_map, List.map_map]
    rfl
  rw [Fewer, hbrief, hbrief]
  exact h.map _

end Finding.Fewer

/-- What is said of a number that is too large is said under a larger limit only if it is said
under a smaller one. -/
theorem sublist_of_limit_le {α β : Type} (f : α → β) {x y : α} {count max max' : Nat}
    (hle : max' ≤ max) (hxy : f x = f y) :
    (if max < count then [x] else []).map f <+ (if max' < count then [y] else []).map f := by
  by_cases hmax : max < count
  · rw [if_pos hmax, if_pos (Nat.lt_of_le_of_lt hle hmax), List.map_singleton, List.map_singleton,
      hxy]
  · rw [if_neg hmax, List.map_nil]
    exact List.nil_sublist _

/-! ## §3 One check -/

namespace Findings

open Finding (Fewer)

variable {loose strict rules : RuleSet} {node : Node}

/-- Where each limited field is named once, its limit is the one that is looked up. -/
theorem ofLengths_eq_flatMap_names (h : (NamedList.names rules.maxLengths).Nodup) :
    ofLengths rules node = (NamedList.names rules.maxLengths).flatMap fun field =>
      ((rules.maxLength? field).map (ofLength node field)).getD [] := by
  rw [ofLengths, NamedList.names, List.flatMap_map]
  refine List.flatMap_congr fun limit hmem => ?_
  obtain ⟨field, max⟩ := limit
  rw [RuleSet.maxLength?, NamedList.lookup_of_mem h hmem]
  rfl

theorem fewer_ofLength {field : String} {max max' : Nat} (hle : max' ≤ max) :
    Fewer (ofLength node field max) (ofLength node field max') := by
  unfold ofLength
  cases node.get? field with
  | none => exact .refl _
  | some value => exact sublist_of_limit_le Finding.brief hle (by rfl)

theorem fewer_ofLengths (hloose : loose.Reachable) (hstrict : strict.Reachable)
    (h : loose.Loosens strict) : Fewer (ofLengths loose node) (ofLengths strict node) := by
  -- Both limit the same fields in the same order, so the checks are compared field by field.
  have hnames : NamedList.names loose.maxLengths = NamedList.names strict.maxLengths := by
    rw [hloose.names_maxLengths, hstrict.names_maxLengths]
  have hnodup : (NamedList.names strict.maxLengths).Nodup := by
    rw [hstrict.names_maxLengths]
    decide
  rw [ofLengths_eq_flatMap_names (hnames ▸ hnodup), ofLengths_eq_flatMap_names hnodup, hnames]
  refine .flatMap _ fun field hfield => ?_
  obtain ⟨max', hmax'⟩ := Option.isSome_iff_exists.1 (NamedList.isSome_lookup_iff.2 hfield)
  rw [← hnames] at hfield
  obtain ⟨max, hmax⟩ := Option.isSome_iff_exists.1 (NamedList.isSome_lookup_iff.2 hfield)
  rw [RuleSet.maxLength?, RuleSet.maxLength?, hmax, hmax']
  exact fewer_ofLength (h.lengths field max max' hmax hmax')

/-- Of the rules the coordinates see the canvas. -/
theorem ofCoordinates_congr_rules (h : loose.canvas = strict.canvas) (tag : KindTag) :
    ofCoordinates loose tag node = ofCoordinates strict tag node := by
  have hcoordinate : ∀ absolute name value,
      ofCoordinate loose absolute name value = ofCoordinate strict absolute name value := by
    intro absolute name value
    cases value with
    | list items => rw [ofCoordinate, ofCoordinate, h]
    | _ => rfl
  simp only [ofCoordinates, hcoordinate]

/-- A value breaks a constraint under looser rules in the same way, if at all. -/
theorem codes_ofConstraint (h : loose.Loosens strict) (constraint : Constraint)
    (value : AttrValue) : (ofConstraint loose constraint value).map Problem.code =
      (ofConstraint strict constraint value).map Problem.code := by
  cases constraint with
  | canvasWidth => rw [ofConstraint, ofConstraint, h.canvas]
  | fontSize min max =>
    have hresolve : FontSize.resolve? loose value = FontSize.resolve? strict value := by
      cases value with
      | text s => simp only [FontSize.resolve?, FontSize.ofText?, h.fontSizes]
      | _ => rfl
    rw [ofConstraint, ofConstraint, ofFontSize, ofFontSize, hresolve]
    -- The message names the aliases, the code does not.
    cases FontSize.resolve? strict value <;> rfl
  | _ => rfl

theorem fewer_ofValues (h : loose.Loosens strict) (tag : KindTag) :
    Fewer (ofValues loose tag node) (ofValues strict tag node) := by
  rw [ofValues, ofValues, ofCoordinates_congr_rules h.canvas]
  refine .append (.append (.refl _) (.flatMap _ fun ⟨name, constraint⟩ _ => ?_)) (.refl _)
  dsimp only
  cases node.get? name with
  | none => exact .refl _
  | some value =>
    refine .at_place _ ?_
    rw [codes_ofConstraint h]

/-- What refers to an unknown module under looser rules did so before. -/
theorem codes_ofModules (h : loose.Loosens strict) (field raw : String) :
    (ofModules loose field raw).map Problem.code <+
      (ofModules strict field raw).map Problem.code := by
  unfold ofModules
  split
  · rw [List.map_map, List.map_map]
    have hfilter : (IconModule.references raw).filter (!loose.isIconModule ·) <+
        (IconModule.references raw).filter (!strict.isIconModule ·) := by
      refine List.monotone_filter_right _ fun name hname => ?_
      simp only [RuleSet.isIconModule, Bool.not_eq_true', decide_eq_false_iff_not] at hname ⊢
      exact fun hmem => hname (h.iconModules hmem)
    exact hfilter.map _
  · exact .refl _

theorem codes_ofExpression (h : loose.Loosens strict) (field : String) (value : AttrValue) :
    (ofExpression loose field value).map Problem.code <+
      (ofExpression strict field value).map Problem.code := by
  have hdepth : (ofExpressionDepth loose value.render).map Problem.code <+
      (ofExpressionDepth strict value.render).map Problem.code :=
    sublist_of_limit_le Problem.code h.expressionDepth (by rfl)
  simp only [ofExpression, List.map_append]
  exact .append (.append (.append (.refl _) hdepth) (.refl _)) (codes_ofModules h field _)

theorem fewer_ofExpressions (h : loose.Loosens strict) :
    Fewer (ofExpressions loose node) (ofExpressions strict node) := by
  refine .flatMap _ fun field _ => ?_
  cases node.get? field with
  | none => exact .refl _
  | some value => exact .at_place _ (codes_ofExpression h field value)

theorem fewer_ofChildren (h : loose.Loosens strict) :
    Fewer (ofChildren loose node) (ofChildren strict node) := by
  unfold ofChildren
  split
  · exact .refl _
  · exact .refl _
  · exact sublist_of_limit_le Finding.brief h.children (by rfl)
  · exact .refl _

theorem fewer_ofNesting (h : loose.Loosens strict) (depth : Nat) :
    Fewer (ofNesting loose depth node) (ofNesting strict depth node) :=
  .append (sublist_of_limit_le Finding.brief h.nodeDepth (by rfl)) (fewer_ofChildren h)

end Findings

/-! ## §4 One node, one stop -/

variable {loose strict : RuleSet}

theorem Node.fewer_findings (hloose : loose.Reachable) (hstrict : strict.Reachable)
    (h : loose.Loosens strict) (parent : Option Node) (depth : Nat) (node : Node) :
    Finding.Fewer (node.findings loose parent depth) (node.findings strict parent depth) := by
  -- Kind, vocabulary and weight are judged without the rules.
  refine .append (.append (.append (.append (.append (.append (.refl _) ?lengths) (.refl _))
    ?values) (.refl _)) ?expressions) ?nesting
  case lengths => exact Findings.fewer_ofLengths hloose hstrict h
  case values => exact Findings.fewer_ofValues h node.kindTag
  case expressions => exact Findings.fewer_ofExpressions h
  case nesting => exact Findings.fewer_ofNesting h depth

theorem Stop.sublist_violations (hloose : loose.Reachable) (hstrict : strict.Reachable)
    (h : loose.Loosens strict) (stop : Stop) :
    (stop.violations loose).map Violation.brief <+
      (stop.violations strict).map Violation.brief := by
  cases hentry : stop.entry with
  | malformed => rw [violations_of_malformed hentry, violations_of_malformed hentry]
  | node node =>
    -- The path is that of the place, put at the address of the node.
    have hbrief : ∀ findings : List Finding,
        (findings.map (Finding.locate stop.address)).map Violation.brief =
          (findings.map Finding.brief).map
            fun (place, code) => ((Location.mk stop.address place).render, code) := by
      intro findings
      rw [List.map_map, List.map_map]
      rfl
    rw [violations_of_node hentry, violations_of_node hentry, Node.violationsAt, Node.violationsAt,
      hbrief, hbrief]
    exact (Node.fewer_findings hloose hstrict h stop.parent stop.depth node).map _

/-! ## §5 The layout -/

/-- **Looser rules, no new violations.**  Let the rules of one project loosen those of another, the
canvas and the font sizes being the same.  Then the violations of a layout under the looser rules
are, by their paths and codes, some of those under the stricter ones, in the same order; so a layout
that is valid under the stricter rules is valid under the looser. -/
theorem Node.validate_sublist_of_loosens (hloose : loose.Reachable) (hstrict : strict.Reachable)
    (h : loose.Loosens strict) (root : Node) :
    ((root.validate loose).map fun violation => (violation.path, violation.problem.code)) <+
        ((root.validate strict).map fun violation => (violation.path, violation.problem.code)) ∧
      (root.validate strict = [] → root.validate loose = []) := by
  have hsublist : (root.validate loose).map Violation.brief <+
      (root.validate strict).map Violation.brief := by
    rw [validate_eq_flatMap, validate_eq_flatMap, List.map_flatMap, List.map_flatMap]
    exact List.Sublist.flatMap_right _ fun stop _ => Stop.sublist_violations hloose hstrict h stop
  refine ⟨hsublist, fun hvalid => ?_⟩
  rw [hvalid, List.map_nil, List.sublist_nil, List.map_eq_nil_iff] at hsublist
  exact hsublist

/-- A text whose content is nested one level deeper than the built-in rules allow. -/
def Node.nestedText : Node :=
  ⟨[("id", .text "a"), ("type", .text "text"),
    ("position", .list [.number (.int 0), .number (.int 0)]), ("anchor", .text "center"),
    ("content", .text "\x7b\x7b\x7bx\x7d\x7d\x7d")]⟩

/-- Rules that allow one level more find no more in it than that. -/
theorem Node.validate_nestedText :
    ∃ loose : RuleSet, loose.Reachable ∧ loose.Loosens .builtin ∧
      loose.limits.maxExpressionDepth = 3 ∧
      ((nestedText.validate loose).map fun violation => (violation.path, violation.problem.code)) <+
        [("root.content", "ExpressionTooDeep")] := by
  have hreachable : RuleSet.Reachable { RuleSet.builtin with limits := ⟨10, 20, 3⟩ } :=
    .adjusted { Overrides.none with limits := some ⟨none, none, some 3⟩ } .builtin rfl
  have hloosens : RuleSet.Loosens { RuleSet.builtin with limits := ⟨10, 20, 3⟩ } .builtin :=
    { canvas := rfl
      fontSizes := fun _ => rfl
      nodeDepth := by decide
      children := by decide
      expressionDepth := by decide
      lengths := fun field max max' hmax hmax' =>
        Nat.le_of_eq (Option.some.inj (hmax'.symm.trans hmax))
      iconModules := List.Subset.refl _ }
  have hstrict : ((nestedText.validate .builtin).map fun violation =>
      (violation.path, violation.problem.code)) = [("root.content", "ExpressionTooDeep")] := by
    decide +kernel
  refine ⟨_, hreachable, hloosens, rfl, ?_⟩
  rw [← hstrict]
  exact (validate_sublist_of_loosens hreachable .builtin hloosens nestedText).1

end PanelLayout
