import Mathlib.Data.List.Count
import PanelLayout.Proofs.Findings.Aspects

/-!
# Findings on one node are distinct

No two of the checks of a node find the same, and no check finds the same twice, if the node names
each attribute once and the rules each length-limited field.  Two sorts of findings are left out:
the operators of an expression are found segment by segment, and the modules reference by
reference, so that a repeated segment or reference is reported again.

* `Findings.nodup_onAttributes` is about the checks that go through a table, and the lemmas behind
  it are about the single checks.
* `Node.nodup_findings` puts the levels together.
* `Findings.count_operator` and `Findings.count_module` count the two sorts that are left out.
-/

namespace PanelLayout

/-- A problem that is found segment by segment, or reference by reference. -/
def Problem.mayRepeat : Problem → Bool
  | .forbiddenOperatorInExpression .. | .unknownIconModule .. => true
  | _ => false

namespace Findings

variable {rules : RuleSet} {node : Node}

/-! ## §1 Attributes -/

section onAttributes

variable {ι : Type} {table : List ι} {name : ι → String} {judge : ι → AttrValue → List Finding}

theorem nodup_map_some (hnames : (table.map name).Nodup) : (table.map (some ∘ name)).Nodup := by
  rw [← List.map_map]
  exact hnames.map fun _ _ => Option.some.inj

/-- What a row of a table finds stands at the attribute of the row. -/
theorem name?_of_mem_row (node : Node) {row : ι} {finding : Finding}
    (hplace : ∀ value, ∀ finding ∈ judge row value, finding.place.name? = some (name row))
    (h : finding ∈ match node.get? (name row) with
      | some value => judge row value
      | none => []) :
    finding.place.name? = some (name row) := by
  split at h
  · exact hplace _ finding h
  · simp at h

/-- What goes through a table that names each attribute once finds nothing twice. -/
theorem nodup_onAttributes (hnames : (table.map name).Nodup)
    (hplace : ∀ row ∈ table, ∀ value, ∀ finding ∈ judge row value,
      finding.place.name? = some (name row))
    (hjudge : ∀ row ∈ table, ∀ value, (judge row value).Nodup) :
    (onAttributes node table name judge).Nodup := by
  refine nodup_flatMap_of_key (some ∘ name) (·.place.name?) (nodup_map_some hnames)
    (fun row hrow finding hfinding => name?_of_mem_row node (hplace row hrow) hfinding)
    fun row hrow => ?_
  split
  · exact hjudge row hrow _
  · exact List.nodup_nil

/-- What is found on an attribute is found as often as its row finds it. -/
theorem count_onAttributes {row : ι} {value : AttrValue} {finding : Finding}
    (hnames : (table.map name).Nodup)
    (hplace : ∀ row ∈ table, ∀ value, ∀ finding ∈ judge row value,
      finding.place.name? = some (name row))
    (hrow : row ∈ table) (hget : node.get? (name row) = some value)
    (hfinding : finding.place.name? = some (name row)) :
    (onAttributes node table name judge).count finding = (judge row value).count finding := by
  have hcount := count_flatMap_of_key (some ∘ name) (fun finding : Finding => finding.place.name?)
    (nodup_map_some hnames) (fun row hrow finding hfinding =>
      name?_of_mem_row node (hplace row hrow) hfinding) hrow hfinding
  rwa [hget] at hcount

end onAttributes

theorem nodup_ofLengths (h : (NamedList.names rules.maxLengths).Nodup) :
    (ofLengths rules node).Nodup := by
  rw [ofLengths_eq_onAttributes]
  refine nodup_onAttributes h (fun limit _ value finding hfinding => ?_) fun limit _ value =>
    (atMostOne_judgeLength limit value).nodup
  rw [((atMostOne_judgeLength limit value).of_mem hfinding).place, Place.name?]

theorem nodup_ofConstraints : (ofConstraints rules node).Nodup := by
  rw [ofConstraints_eq_onAttributes]
  refine nodup_onAttributes (by decide) (fun row hrow value finding hfinding => ?_)
    fun row hrow value => (atMostOne_judgeConstraint hrow value).nodup
  rw [((atMostOne_judgeConstraint hrow value).of_mem hfinding).place, Place.name?]

/-! ## §2 Coordinates -/

theorem nodup_axes (items : List AttrValue) : ((withAxes items).map (·.2)).Nodup := by
  match items with
  | [] => exact List.nodup_nil
  | [_] => exact List.nodup_singleton _
  | _ :: _ :: _ => simp [withAxes]

/-- What is found component by component is found once for each. -/
theorem nodup_flatMap_withAxes {name : String} {outside : Bool} (items : List AttrValue)
    {judge : AttrValue × Axis → List Finding}
    (hjudge : ∀ component, AtMostOne (ConcernsComponent name component.2 outside) (judge component)) :
    ((withAxes items).flatMap judge).Nodup := by
  have htags : ((withAxes items).map (Place.component name ∘ Prod.snd)).Nodup := by
    rw [← List.map_map]
    exact (nodup_axes items).map fun a b h => by cases h; rfl
  refine nodup_flatMap_of_key (Place.component name ∘ Prod.snd) Finding.place htags ?_
    fun component _ => (hjudge component).nodup
  exact fun component _ finding hfinding => ((hjudge component).of_mem hfinding).place

/-- The shape of a coordinate is judged at the attribute, the rest at the components; and there
one sort of problem comes of the canvas only. -/
theorem nodup_ofCoordinate (absolute : Bool) (name : String) (value : AttrValue) :
    (ofCoordinate rules absolute name value).Nodup := by
  cases value with
  | list items =>
    have hshape : AtMostOne (fun finding => finding.place = .field name)
        (judgeShape name items) := .ite_not rfl
    have hsigns : (judgeSigns name items).Nodup :=
      nodup_flatMap_withAxes items fun component => atMostOne_ofComponent ..
    have hbounds : (judgeBounds rules.canvas absolute name items).Nodup := by
      unfold judgeBounds
      split
      · exact nodup_flatMap_withAxes items fun component => atMostOne_ofAbsoluteComponent ..
      · exact List.nodup_nil
    rw [ofCoordinate_list, List.append_assoc]
    refine hshape.nodup.append (hsigns.append hbounds ?_) ?_
    · intro finding hsign hbound
      obtain ⟨_, hsign⟩ := concernsComponent_of_mem_judgeSigns hsign
      obtain ⟨_, hbound⟩ := concernsComponent_of_mem_judgeBounds hbound
      exact Bool.noConfusion (hsign.outside.symm.trans hbound.outside)
    · intro finding hfield hcomponent
      have hfield : finding.place = .field name := hshape.of_mem hfield
      rcases List.mem_append.1 hcomponent with h | h
      · obtain ⟨_, hsign⟩ := concernsComponent_of_mem_judgeSigns h
        exact Place.noConfusion (hfield.symm.trans hsign.place)
      · obtain ⟨_, hbound⟩ := concernsComponent_of_mem_judgeBounds h
        exact Place.noConfusion (hfield.symm.trans hbound.place)
  | _ => exact List.nodup_singleton _

theorem nodup_ofCoordinates (tag : KindTag) : (ofCoordinates rules tag node).Nodup := by
  have hnames : (tag.coordinates.map id).Nodup := by
    rw [List.map_id]
    cases tag with
    | known kind => cases kind <;> decide
    | _ => exact List.nodup_nil
  rw [ofCoordinates_eq_onAttributes]
  exact nodup_onAttributes hnames
    (fun _ _ _ _ hfinding => (place_of_mem_ofCoordinate hfinding).1)
    fun name _ value => nodup_ofCoordinate node.isAbsolute name value

/-! ## §3 The vocabulary -/

theorem nodup_required (kind : NodeKind) : kind.required.Nodup := by
  cases kind <;> decide

theorem nodup_ofRequired (tag : KindTag) : (ofRequired tag node).Nodup := by
  cases tag with
  | missing => exact List.nodup_singleton _
  | unknown text => exact List.nodup_nil
  | known kind =>
    refine ((nodup_required kind).filter _).map fun a b h => ?_
    cases h
    rfl

/-- A forbidden attribute is found as often as its name stands there. -/
theorem nodup_ofExcluded (h : (NamedList.names node.attributes).Nodup) (tag : KindTag) :
    (ofExcluded tag node).Nodup := by
  cases tag with
  | known kind =>
    refine (h.filter _).map fun a b h => ?_
    cases h
    rfl
  | _ => exact List.nodup_nil

/-! ## §4 Expressions -/

/-- Apart from operators and modules an expression has two problems at most, a different one each. -/
theorem nodup_filter_ofExpression (field : String) (value : AttrValue) :
    ((ofExpression rules field value).filter (!·.mayRepeat)).Nodup := by
  have hblank : AtMostOne (· = .emptyRequiredExpression) (ofBlank field value.render) := .ite rfl
  have hdepth : AtMostOne (fun problem => ∃ depth max, problem = .expressionTooDeep depth max)
      (ofExpressionDepth rules value.render) := .ite ⟨_, _, rfl⟩
  have hsegments : ((Expression.segments value.render).flatMap ofSegment).filter (!·.mayRepeat) =
      [] := by
    rw [List.filter_eq_nil_iff]
    intro problem hproblem
    obtain ⟨segment, -, hproblem⟩ := List.mem_flatMap.1 hproblem
    obtain ⟨operator, -, rfl⟩ := List.mem_map.1 hproblem
    simp [Problem.mayRepeat]
  have hmodules : (ofModules rules field value.render).filter (!·.mayRepeat) = [] := by
    rw [List.filter_eq_nil_iff]
    intro problem hproblem
    rw [ofModules, List.mem_ite_nil_right] at hproblem
    obtain ⟨name, -, rfl⟩ := List.mem_map.1 hproblem.2
    simp [Problem.mayRepeat]
  rw [ofExpression, List.filter_append, List.filter_append, hsegments, hmodules, List.append_nil,
    List.append_nil]
  refine (hblank.nodup.append hdepth.nodup ?_).filter _
  intro problem hempty hdeep
  obtain ⟨depth, max, heq⟩ := hdepth.of_mem hdeep
  exact Problem.noConfusion ((hblank.of_mem hempty).symm.trans heq)

theorem nodup_filter_ofExpressions :
    ((ofExpressions rules node).filter (!·.problem.mayRepeat)).Nodup := by
  rw [ofExpressions_eq_onAttributes, filter_onAttributes]
  refine nodup_onAttributes (by decide) (fun field _ value finding hfinding => ?_)
    fun field _ value => ?_
  · rw [(concerns_of_mem_judgeExpression (List.mem_of_mem_filter hfinding)).place, Place.name?, id]
  · rw [judgeExpression, List.filter_map]
    refine (nodup_filter_ofExpression field value).map fun a b h => ?_
    cases h
    rfl

/-- An operator is found once in a segment in which it stands. -/
theorem count_ofSegment (operator : Char) (segment segment' : String) :
    (ofSegment segment').count (.forbiddenOperatorInExpression operator segment) =
      if segment' = segment ∧ operator ∈ Expression.forbiddenOperators ∧ operator ∈ segment.toList
      then 1 else 0 := by
  have hoperators : Expression.forbiddenOperators.Nodup := by decide
  have hnodup : (ofSegment segment').Nodup := (hoperators.filter _).map fun a b h => by
    cases h
    rfl
  have hmem : .forbiddenOperatorInExpression operator segment ∈ ofSegment segment' ↔
      segment' = segment ∧ operator ∈ Expression.forbiddenOperators ∧
        operator ∈ segment.toList := by
    simp only [ofSegment, List.mem_map, List.mem_filter, decide_eq_true_iff,
      Problem.forbiddenOperatorInExpression.injEq]
    constructor
    · rintro ⟨_, ⟨hforbidden, hsegment⟩, rfl, rfl⟩
      exact ⟨rfl, hforbidden, hsegment⟩
    · rintro ⟨rfl, hforbidden, hsegment⟩
      exact ⟨operator, ⟨hforbidden, hsegment⟩, rfl, rfl⟩
  rw [hnodup.count]
  simp only [hmem]

/-- It is found as often as the segment is repeated. -/
theorem count_flatMap_ofSegment (operator : Char) (segment : String) (segments : List String) :
    (segments.flatMap ofSegment).count (.forbiddenOperatorInExpression operator segment) =
      if operator ∈ Expression.forbiddenOperators ∧ operator ∈ segment.toList
      then segments.count segment else 0 := by
  induction segments with
  | nil => simp
  | cons head rest ih =>
    rw [List.flatMap_cons, List.count_append, ih, count_ofSegment, List.count_cons]
    by_cases hoperator : operator ∈ Expression.forbiddenOperators ∧ operator ∈ segment.toList
    · by_cases hhead : head = segment <;> simp [hoperator, hhead, Nat.add_comm]
    · simp [hoperator]

/-- An operator is found in an expression as often as the segment in which it stands is repeated. -/
theorem count_operator (field : String) (value : AttrValue) (operator : Char) (segment : String) :
    (ofExpression rules field value).count (.forbiddenOperatorInExpression operator segment) =
      if operator ∈ Expression.forbiddenOperators ∧ operator ∈ segment.toList
      then (Expression.segments value.render).count segment else 0 := by
  rw [count_ofExpression]
  show ((ofExpression rules field value).filter
    (·.code = "ForbiddenOperatorInExpression")).count _ = _
  rw [filter_operators, count_flatMap_ofSegment]

/-- An unknown module is found in the name of an icon as often as the reference is repeated, and
with it the modules that are known. -/
theorem count_module (field : String) (value : AttrValue) (name allowed : String) :
    (ofExpression rules field value).count (.unknownIconModule name allowed) =
      if field = iconField ∧ rules.isIconModule name = false ∧
        allowed = ", ".intercalate rules.iconModules
      then (IconModule.references value.render).count name else 0 := by
  rw [count_ofExpression]
  show ((ofExpression rules field value).filter (·.code = "UnknownIconModule")).count _ = _
  rw [filter_modules]
  by_cases hmodule : field = iconField ∧ rules.isIconModule name = false ∧
    allowed = ", ".intercalate rules.iconModules
  · obtain ⟨hfield, hunknown, rfl⟩ := hmodule
    have hinjective : Function.Injective fun name =>
        Problem.unknownIconModule name (", ".intercalate rules.iconModules) :=
      fun a b h => by cases h; rfl
    rw [if_pos ⟨hfield, hunknown, rfl⟩, ofModules, if_pos hfield,
      List.count_map_of_injective _ _ hinjective, List.count_filter (by simp [hunknown])]
  · rw [if_neg hmodule, List.count_eq_zero, ofModules, List.mem_ite_nil_right]
    rintro ⟨hfield, hmem⟩
    obtain ⟨other, hother, heq⟩ := List.mem_map.1 hmem
    cases heq
    have hunknown := (List.mem_filter.1 hother).2
    exact hmodule ⟨hfield, by simpa using hunknown, rfl⟩

end Findings

/-! ## §5 All aspects -/

namespace Node

variable {rules : RuleSet} {node : Node}

theorem nodup_findingsOn (hlengths : (NamedList.names rules.maxLengths).Nodup)
    (hnames : (NamedList.names node.attributes).Nodup) (parent : Option Node) (depth : Nat)
    (aspect : Aspect) :
    ((node.findingsOn rules parent depth aspect).filter (!·.problem.mayRepeat)).Nodup := by
  cases aspect with
  | kind => exact (Findings.atMostOne_ofKind node.kindTag).nodup.filter _
  | lengths => exact (Findings.nodup_ofLengths hlengths).filter _
  | required => exact (Findings.nodup_ofRequired node.kindTag).filter _
  | forbidden => exact (Findings.nodup_ofExcluded hnames node.kindTag).filter _
  | coordinates => exact (Findings.nodup_ofCoordinates node.kindTag).filter _
  | constraints => exact Findings.nodup_ofConstraints.filter _
  | placement => exact (Findings.atMostOne_ofPlacement node.kindTag node).nodup.filter _
  | weight => exact (Findings.atMostOne_ofWeight parent node).nodup.filter _
  | expressions => exact Findings.nodup_filter_ofExpressions
  | depth => exact (Findings.atMostOne_ofDepth rules depth).nodup.filter _
  | children => exact (Findings.atMostOne_ofChildren rules node).nodup.filter _

/-- Nothing is found twice on one node, apart from operators and modules. -/
theorem nodup_findings (hlengths : (NamedList.names rules.maxLengths).Nodup)
    (hnames : (NamedList.names node.attributes).Nodup) (parent : Option Node) (depth : Nat) :
    ((node.findings rules parent depth).filter (!·.problem.mayRepeat)).Nodup := by
  rw [findings_eq_flatMap_aspects, List.filter_flatMap]
  refine nodup_flatMap_of_key some Finding.aspect? (by decide) ?_ fun aspect _ =>
    nodup_findingsOn hlengths hnames parent depth aspect
  exact fun aspect _ finding hfinding => aspect?_of_mem_findingsOn (List.mem_of_mem_filter hfinding)

/-- A problem of expressions is found on a node as often as on the expression where it is found. -/
theorem count_findings_expression {parent : Option Node} {depth : Nat} {field : String}
    {value : AttrValue} {problem : Problem} (hfield : field ∈ Findings.expressionFields)
    (hget : node.get? field = some value)
    (hproblem : (Finding.mk (.field field) problem).aspect? = some .expressions) :
    (node.findings rules parent depth).count ⟨.field field, problem⟩ =
      (Findings.ofExpression rules field value).count problem := by
  -- From all aspects to one, from there to one row of the table, and to the problems alone.
  have haspect : (node.findings rules parent depth).count ⟨.field field, problem⟩ =
      (Findings.ofExpressions rules node).count ⟨.field field, problem⟩ := by
    have hall : (Aspect.all.map some).Nodup := by decide
    have hmem : Aspect.expressions ∈ Aspect.all := by decide
    rw [findings_eq_flatMap_aspects]
    exact count_flatMap_of_key some Finding.aspect? hall (fun _ _ _ => aspect?_of_mem_findingsOn)
      hmem hproblem
  have hrow : (Findings.ofExpressions rules node).count ⟨.field field, problem⟩ =
      (Findings.judgeExpression rules field value).count ⟨.field field, problem⟩ := by
    rw [Findings.ofExpressions_eq_onAttributes]
    refine Findings.count_onAttributes (by decide) (fun _ _ _ _ h => ?_) hfield hget rfl
    rw [(Findings.concerns_of_mem_judgeExpression h).place, Place.name?, id]
  rw [haspect, hrow]
  exact List.count_map_of_injective _ (Finding.mk (.field field)) (fun a b h => by cases h; rfl)
    problem

end Node

end PanelLayout
