import PanelLayout.Proofs.Expression.Problems
import PanelLayout.Proofs.Parts
import PanelLayout.Walk

/-!
# The aspects of a node

A check looks at one aspect of a node, or at two: at its kind, at the lengths of its texts, at the
attributes that it must or must not have, and so on.  This module tells the findings on the aspects
apart.

* `Node.findings_eq_flatMap_aspects` lists the findings on a node aspect by aspect.
* `Node.aspect?_of_mem_findingsOn` reads the aspect off a finding.  The problem tells it, but for
  problems that any value may have; there the place does.
* `Findings.onAttributes` is what four of the checks have in common.  They go through a table and
  judge, each on its own, the attributes that the node has; what they find stands at the attribute.
-/

namespace PanelLayout

/-! ## §1 Findings by aspect -/

/-- What the checks of a node look at. -/
inductive Aspect where
  | kind
  | lengths
  | required
  | forbidden
  | coordinates
  | constraints
  | placement
  | weight
  | expressions
  | depth
  | children
  deriving DecidableEq, Repr

/-- All aspects, in the order of the checks. -/
def Aspect.all : List Aspect :=
  [.kind, .lengths, .required, .forbidden, .coordinates, .constraints, .placement, .weight,
    .expressions, .depth, .children]

/-- The names of the coordinates; without a kind there are none. -/
def KindTag.coordinates (tag : KindTag) : List String :=
  match tag.kind? with
  | some kind => kind.coordinates
  | none => []

namespace Findings

/-- The half of the vocabulary that asks for attributes. -/
def ofRequired (tag : KindTag) (node : Node) : List Finding :=
  match tag with
  | .missing => [⟨.node, .missingRequiredAttribute "type" "untyped"⟩]
  | .known kind => ofMissing kind node
  | .unknown _ => []

/-- The half of the vocabulary that forbids attributes. -/
def ofExcluded (tag : KindTag) (node : Node) : List Finding :=
  match tag with
  | .known kind => ofForbidden kind node
  | _ => []

theorem ofVocabulary_eq_append (tag : KindTag) (node : Node) :
    ofVocabulary tag node = ofRequired tag node ++ ofExcluded tag node := by
  cases tag <;> rfl

/-- What is required is looked up by its name only. -/
theorem ofRequired_congr {tag : KindTag} {a b : Node}
    (h : ∀ kind : NodeKind, ∀ name ∈ kind.required, a.contains name = b.contains name) :
    ofRequired tag a = ofRequired tag b := by
  cases tag with
  | known kind =>
    have hfilter : kind.required.filter (!a.contains ·) = kind.required.filter (!b.contains ·) :=
      List.filter_congr fun name hname => by rw [h kind name hname]
    rw [ofRequired, ofRequired, ofMissing, ofMissing, hfilter]
  | _ => rfl

end Findings

namespace Node

variable {rules : RuleSet} {parent : Option Node} {depth : Nat} {node : Node}

/-- What is found on one aspect of a node. -/
def findingsOn (rules : RuleSet) (parent : Option Node) (depth : Nat) (node : Node) :
    Aspect → List Finding
  | .kind => Findings.ofKind node.kindTag
  | .lengths => Findings.ofLengths rules node
  | .required => Findings.ofRequired node.kindTag node
  | .forbidden => Findings.ofExcluded node.kindTag node
  | .coordinates => Findings.ofCoordinates rules node.kindTag node
  | .constraints => Findings.ofConstraints rules node
  | .placement => Findings.ofPlacement node.kindTag node
  | .weight => Findings.ofWeight parent node
  | .expressions => Findings.ofExpressions rules node
  | .depth => Findings.ofDepth rules depth
  | .children => Findings.ofChildren rules node

theorem findings_eq_flatMap_aspects (rules : RuleSet) (parent : Option Node) (depth : Nat)
    (node : Node) :
    node.findings rules parent depth = Aspect.all.flatMap (node.findingsOn rules parent depth) := by
  simp [findings, Findings.ofValues, Findings.ofNesting, Findings.ofVocabulary_eq_append,
    Aspect.all, findingsOn]

end Node

/-! ## §2 Checks that find one thing at most -/

/-- There is one item at most, and it is such a one. -/
def AtMostOne {α : Type} (p : α → Prop) (items : List α) : Prop :=
  items = [] ∨ ∃ item, p item ∧ items = [item]

namespace AtMostOne

variable {α β : Type} {p : α → Prop} {items : List α} {item : α}

theorem nil : AtMostOne p [] := .inl rfl

theorem singleton (h : p item) : AtMostOne p [item] := .inr ⟨item, h, rfl⟩

theorem ite {c : Prop} [Decidable c] (h : p item) : AtMostOne p (if c then [item] else []) := by
  split
  · exact singleton h
  · exact nil

theorem ite_not {c : Prop} [Decidable c] (h : p item) : AtMostOne p (if c then [] else [item]) := by
  split
  · exact nil
  · exact singleton h

theorem map {q : β → Prop} {f : α → β} (h : AtMostOne p items) (hf : ∀ item, p item → q (f item)) :
    AtMostOne q (items.map f) := by
  obtain rfl | ⟨item, hitem, rfl⟩ := h
  · exact nil
  · exact singleton (hf item hitem)

theorem of_mem (h : AtMostOne p items) (hitem : item ∈ items) : p item := by
  obtain rfl | ⟨other, hother, rfl⟩ := h
  · simp at hitem
  · rwa [List.mem_singleton.1 hitem]

theorem nodup (h : AtMostOne p items) : items.Nodup := by
  obtain rfl | ⟨item, -, rfl⟩ := h
  · exact List.nodup_nil
  · exact List.nodup_singleton item

end AtMostOne

/-! ## §3 The aspect of a finding -/

/-- The attribute to which a place belongs. -/
def Place.name? : Place → Option String
  | .node => none
  | .field name | .component name _ => some name

/-- The aspect to which the value at a place belongs. -/
def Place.aspect : Place → Aspect
  | .field name =>
    if name = "children" then .children
    else if name ∈ NamedList.names Constraint.table then .constraints
    else .coordinates
  | _ => .coordinates

/-- The aspect on which a finding was made, if it was made on a node. -/
def Finding.aspect? (finding : Finding) : Option Aspect :=
  match finding.problem with
  | .unparsableDocument _ | .malformedChildEntry => none
  | .unknownNodeKind .. => some .kind
  | .missingRequiredAttribute .. => some .required
  | .forbiddenAttributePresent .. => some .forbidden
  | .fieldTooLong .. => some .lengths
  | .absoluteLayoutNotAllowed _ => some .placement
  | .invalidWeightUsage => some .weight
  | .expressionTooDeep .. | .forbiddenOperatorInExpression .. | .unknownIconModule ..
  | .emptyRequiredExpression => some .expressions
  | .nestingTooDeep .. => some .depth
  -- These are problems of a value, of whatever attribute.
  | .wrongType .. | .outOfRange .. | .invalidEnumValue .. | .unparsableFontSize ..
  | .fontSizeOutOfRange .. | .coordinateOutOfCanvas .. | .tooManyChildren .. =>
    some finding.place.aspect

/-- A problem that the value of any attribute may have. -/
def Problem.IsOfValue (problem : Problem) : Prop :=
  ∀ place, (Finding.mk place problem).aspect? = some place.aspect

/-- A problem that only an absolute coordinate can have. -/
def Problem.isOutOfCanvas : Problem → Bool
  | .coordinateOutOfCanvas .. => true
  | _ => false

/-- The finding was made at that place and on that aspect. -/
structure Finding.Concerns (place : Place) (aspect : Aspect) (finding : Finding) : Prop where
  place : finding.place = place
  aspect : finding.aspect? = some aspect

namespace Findings

open Finding (Concerns)

variable {rules : RuleSet} {node : Node} {finding : Finding}

theorem atMostOne_ofKind (tag : KindTag) : AtMostOne (Concerns .node .kind) (ofKind tag) := by
  cases tag with
  | unknown text => exact .singleton ⟨rfl, rfl⟩
  | _ => exact .nil

theorem atMostOne_ofPlacement (tag : KindTag) (node : Node) :
    AtMostOne (Concerns (.field "is_absolute") .placement) (ofPlacement tag node) :=
  .ite ⟨rfl, rfl⟩

theorem atMostOne_ofWeight (parent : Option Node) (node : Node) :
    AtMostOne (Concerns (.field "weight") .weight) (ofWeight parent node) :=
  .ite ⟨rfl, rfl⟩

theorem atMostOne_ofDepth (rules : RuleSet) (depth : Nat) :
    AtMostOne (Concerns .node .depth) (ofDepth rules depth) :=
  .ite ⟨rfl, rfl⟩

theorem atMostOne_ofChildren (rules : RuleSet) (node : Node) :
    AtMostOne (Concerns (.field "children") .children) (ofChildren rules node) := by
  unfold ofChildren
  split
  · exact .nil
  · exact .nil
  · exact .ite ⟨rfl, rfl⟩
  · exact .singleton ⟨rfl, rfl⟩

theorem concerns_of_mem_ofRequired {tag : KindTag} (h : finding ∈ ofRequired tag node) :
    finding.Concerns .node .required := by
  cases tag with
  | missing =>
    rw [ofRequired, List.mem_singleton] at h
    subst h
    exact ⟨rfl, rfl⟩
  | known kind =>
    obtain ⟨name, -, rfl⟩ := List.mem_map.1 h
    exact ⟨rfl, rfl⟩
  | unknown text => simp [ofRequired] at h

theorem concerns_of_mem_ofExcluded {tag : KindTag} (h : finding ∈ ofExcluded tag node) :
    finding.Concerns .node .forbidden := by
  cases tag with
  | known kind =>
    obtain ⟨name, -, rfl⟩ := List.mem_map.1 h
    exact ⟨rfl, rfl⟩
  | _ => simp [ofExcluded] at h

/-! ## §4 Checks that go through a table -/

/-- What a check finds that judges the attributes of a node that stand in a table, one after the
other. -/
def onAttributes {ι : Type} (node : Node) (table : List ι) (name : ι → String)
    (judge : ι → AttrValue → List Finding) : List Finding :=
  table.flatMap fun row =>
    match node.get? (name row) with
    | some value => judge row value
    | none => []

/-- The judgement on the length of a text. -/
def judgeLength (limit : String × Nat) (value : AttrValue) : List Finding :=
  let length := value.render.length
  if limit.2 < length then [⟨.field limit.1, .fieldTooLong length limit.2⟩] else []

/-- The judgement on a constrained value. -/
def judgeConstraint (rules : RuleSet) (row : String × Constraint) (value : AttrValue) :
    List Finding :=
  (ofConstraint rules row.2 value).map (⟨.field row.1, ·⟩)

/-- The judgement on an expression. -/
def judgeExpression (rules : RuleSet) (field : String) (value : AttrValue) : List Finding :=
  (ofExpression rules field value).map (⟨.field field, ·⟩)

theorem ofLengths_eq_onAttributes (rules : RuleSet) (node : Node) :
    ofLengths rules node = onAttributes node rules.maxLengths (·.1) judgeLength := by
  refine List.flatMap_congr fun ⟨field, max⟩ _ => ?_
  dsimp only [ofLength, judgeLength]
  cases node.get? field <;> rfl

theorem ofCoordinates_eq_onAttributes (rules : RuleSet) (tag : KindTag) (node : Node) :
    ofCoordinates rules tag node =
      onAttributes node tag.coordinates id (ofCoordinate rules node.isAbsolute) := rfl

theorem ofConstraints_eq_onAttributes (rules : RuleSet) (node : Node) :
    ofConstraints rules node =
      onAttributes node Constraint.table (·.1) (judgeConstraint rules) := rfl

theorem ofExpressions_eq_onAttributes (rules : RuleSet) (node : Node) :
    ofExpressions rules node =
      onAttributes node expressionFields id (judgeExpression rules) := rfl

section onAttributes

variable {ι : Type} {a b : Node} {table : List ι} {name : ι → String}
  {judge judge' : ι → AttrValue → List Finding} {keep : Finding → Bool}

theorem mem_onAttributes_iff :
    finding ∈ onAttributes node table name judge ↔
      ∃ row ∈ table, ∃ value, node.get? (name row) = some value ∧ finding ∈ judge row value := by
  rw [onAttributes, List.mem_flatMap]
  refine exists_congr fun row => and_congr_right fun _ => ?_
  cases node.get? (name row) <;> simp

theorem filter_onAttributes :
    (onAttributes node table name judge).filter keep =
      onAttributes node table name fun row value => (judge row value).filter keep := by
  rw [onAttributes, List.filter_flatMap]
  refine List.flatMap_congr fun row _ => ?_
  cases node.get? (name row) <;> rfl

/-- Two nodes are told the same if row by row their attributes have the same value and are judged
alike, or nothing is said of them. -/
theorem onAttributes_congr
    (h : ∀ row ∈ table, (a.get? (name row) = b.get? (name row) ∧ judge row = judge' row) ∨
      ∀ value, judge row value = [] ∧ judge' row value = []) :
    onAttributes a table name judge = onAttributes b table name judge' := by
  refine List.flatMap_congr fun row hrow => ?_
  rcases h row hrow with ⟨hget, hjudge⟩ | hnil
  · rw [hget, hjudge]
  · cases a.get? (name row) <;> cases b.get? (name row) <;> simp [hnil]

end onAttributes

/-! ## §5 Judgements -/

theorem atMostOne_judgeLength (limit : String × Nat) (value : AttrValue) :
    AtMostOne (Concerns (.field limit.1) .lengths) (judgeLength limit value) :=
  .ite ⟨rfl, rfl⟩

theorem concerns_of_mem_judgeExpression {field : String} {value : AttrValue}
    (h : finding ∈ judgeExpression rules field value) :
    finding.Concerns (.field field) .expressions := by
  obtain ⟨problem, hproblem, rfl⟩ := List.mem_map.1 h
  refine ⟨rfl, ?_⟩
  rcases problem_of_mem_ofExpression hproblem with rfl | ⟨_, _, rfl⟩ | ⟨_, _, rfl⟩ | ⟨_, _, rfl⟩ <;>
    rfl

/-- A constraint is broken in one way at most. -/
theorem atMostOne_ofConstraint (rules : RuleSet) (constraint : Constraint) (value : AttrValue) :
    AtMostOne Problem.IsOfValue (ofConstraint rules constraint value) := by
  -- Two constraints are ranges.
  have hrange : ∀ numeric min max,
      AtMostOne Problem.IsOfValue (ofRange numeric min max value) := by
    intro numeric min max
    unfold ofRange
    split
    · exact .singleton fun _ => rfl
    · exact .ite_not fun _ => rfl
  cases constraint with
  | oneOf words => exact .ite_not fun _ => rfl
  | range numeric min max => exact hrange ..
  | canvasWidth => exact hrange ..
  | boolean =>
    cases value with
    | bool b => exact .nil
    | _ => exact .singleton fun _ => rfl
  | fontSize min max =>
    rw [ofConstraint, ofFontSize]
    split
    · exact .singleton fun _ => rfl
    · exact .ite fun _ => rfl

theorem aspect_of_mem_table {row : String × Constraint} (h : row ∈ Constraint.table) :
    (Place.field row.1).aspect = .constraints := by
  have hall : ∀ name ∈ NamedList.names Constraint.table,
      (Place.field name).aspect = .constraints := by decide
  exact hall row.1 (List.mem_map.2 ⟨row, h, rfl⟩)

theorem atMostOne_judgeConstraint {row : String × Constraint} (h : row ∈ Constraint.table)
    (value : AttrValue) :
    AtMostOne (Concerns (.field row.1) .constraints) (judgeConstraint rules row value) :=
  (atMostOne_ofConstraint rules row.2 value).map fun _ hproblem =>
    ⟨rfl, (hproblem _).trans (congrArg some (aspect_of_mem_table h))⟩

/-! ## §6 Coordinates -/

/-- The judgement on the number of components. -/
def judgeShape (name : String) (items : List AttrValue) : List Finding :=
  if items.length = 2 then []
  else
    [⟨.field name, .wrongType "2-element [x, y] array" (toString items.length ++ "-element array")⟩]

/-- The judgement on the components, taken one by one. -/
def judgeSigns (name : String) (items : List AttrValue) : List Finding :=
  (withAxes items).flatMap fun (item, axis) => ofComponent name item axis

/-- The judgement on where a node placed absolutely lies. -/
def judgeBounds (canvas : Canvas) (absolute : Bool) (name : String) (items : List AttrValue) :
    List Finding :=
  if absolute && items.length = 2 then
    (withAxes items).flatMap fun (item, axis) => ofAbsoluteComponent canvas name item axis
  else []

theorem ofCoordinate_list (absolute : Bool) (name : String) (items : List AttrValue) :
    ofCoordinate rules absolute name (.list items) =
      judgeShape name items ++ judgeSigns name items ++
        judgeBounds rules.canvas absolute name items := rfl

/-- What is found at a component, of the one sort or of the other. -/
structure ConcernsComponent (name : String) (axis : Axis) (outside : Bool) (finding : Finding) :
    Prop where
  place : finding.place = .component name axis
  problem : finding.problem.IsOfValue
  outside : finding.problem.isOutOfCanvas = outside

theorem atMostOne_ofComponent (name : String) (item : AttrValue) (axis : Axis) :
    AtMostOne (ConcernsComponent name axis false) (ofComponent name item axis) := by
  unfold ofComponent
  split
  · exact .singleton ⟨rfl, fun _ => rfl, rfl⟩
  · exact .ite_not ⟨rfl, fun _ => rfl, rfl⟩

theorem atMostOne_ofAbsoluteComponent (canvas : Canvas) (name : String) (item : AttrValue)
    (axis : Axis) :
    AtMostOne (ConcernsComponent name axis true) (ofAbsoluteComponent canvas name item axis) := by
  unfold ofAbsoluteComponent
  split
  · exact .nil
  · exact .ite_not ⟨rfl, fun _ => rfl, rfl⟩

theorem concernsComponent_of_mem_judgeSigns {name : String} {items : List AttrValue}
    (h : finding ∈ judgeSigns name items) : ∃ axis, ConcernsComponent name axis false finding := by
  obtain ⟨⟨item, axis⟩, -, h⟩ := List.mem_flatMap.1 h
  exact ⟨axis, (atMostOne_ofComponent name item axis).of_mem h⟩

theorem concernsComponent_of_mem_judgeBounds {canvas : Canvas} {absolute : Bool} {name : String}
    {items : List AttrValue} (h : finding ∈ judgeBounds canvas absolute name items) :
    ∃ axis, ConcernsComponent name axis true finding := by
  rw [judgeBounds, List.mem_ite_nil_right] at h
  obtain ⟨⟨item, axis⟩, -, h⟩ := List.mem_flatMap.1 h.2
  exact ⟨axis, (atMostOne_ofAbsoluteComponent canvas name item axis).of_mem h⟩

/-- What is found on a coordinate stands at it or at a component of it. -/
theorem place_of_mem_ofCoordinate {absolute : Bool} {name : String} {value : AttrValue}
    (h : finding ∈ ofCoordinate rules absolute name value) :
    finding.place.name? = some name ∧ finding.problem.IsOfValue := by
  cases value with
  | list items =>
    simp only [ofCoordinate_list, List.mem_append] at h
    rcases h with (hshape | hsigns) | hbounds
    · rw [judgeShape, List.mem_ite_nil_left, List.mem_singleton] at hshape
      rw [hshape.2]
      exact ⟨rfl, fun _ => rfl⟩
    · obtain ⟨axis, hplace, hproblem, -⟩ := concernsComponent_of_mem_judgeSigns hsigns
      exact ⟨by rw [hplace, Place.name?], hproblem⟩
    · obtain ⟨axis, hplace, hproblem, -⟩ := concernsComponent_of_mem_judgeBounds hbounds
      exact ⟨by rw [hplace, Place.name?], hproblem⟩
  | _ =>
    rw [ofCoordinate, List.mem_singleton] at h
    · subst h
      exact ⟨rfl, fun _ => rfl⟩
    · simp

theorem aspect_of_mem_coordinates {tag : KindTag} {place : Place} {name : String}
    (hname : name ∈ tag.coordinates) (hplace : place.name? = some name) :
    place.aspect = .coordinates := by
  have hall : ∀ kind : NodeKind, ∀ name ∈ kind.coordinates,
      (Place.field name).aspect = .coordinates := by
    intro kind
    cases kind <;> decide
  cases tag with
  | known kind =>
    cases place with
    | node => rfl
    | field other =>
      cases hplace
      exact hall kind name hname
    | component other axis => rfl
  | _ => simp [KindTag.coordinates, KindTag.kind?] at hname

end Findings

/-! ## §7 All aspects -/

/-- A finding tells on which aspect of a node it was made. -/
theorem Node.aspect?_of_mem_findingsOn {rules : RuleSet} {parent : Option Node} {depth : Nat}
    {node : Node} {aspect : Aspect} {finding : Finding}
    (h : finding ∈ node.findingsOn rules parent depth aspect) : finding.aspect? = some aspect := by
  cases aspect with
  | kind => exact ((Findings.atMostOne_ofKind node.kindTag).of_mem h).aspect
  | lengths =>
    rw [findingsOn, Findings.ofLengths_eq_onAttributes] at h
    obtain ⟨limit, -, value, -, h⟩ := Findings.mem_onAttributes_iff.1 h
    exact ((Findings.atMostOne_judgeLength limit value).of_mem h).aspect
  | required => exact (Findings.concerns_of_mem_ofRequired h).aspect
  | forbidden => exact (Findings.concerns_of_mem_ofExcluded h).aspect
  | coordinates =>
    rw [findingsOn, Findings.ofCoordinates_eq_onAttributes] at h
    obtain ⟨name, hname, value, -, h⟩ := Findings.mem_onAttributes_iff.1 h
    obtain ⟨hplace, hproblem⟩ := Findings.place_of_mem_ofCoordinate h
    exact (hproblem _).trans (congrArg some (Findings.aspect_of_mem_coordinates hname hplace))
  | constraints =>
    rw [findingsOn, Findings.ofConstraints_eq_onAttributes] at h
    obtain ⟨row, hrow, value, -, h⟩ := Findings.mem_onAttributes_iff.1 h
    exact ((Findings.atMostOne_judgeConstraint hrow value).of_mem h).aspect
  | placement => exact ((Findings.atMostOne_ofPlacement node.kindTag node).of_mem h).aspect
  | weight => exact ((Findings.atMostOne_ofWeight parent node).of_mem h).aspect
  | expressions =>
    rw [findingsOn, Findings.ofExpressions_eq_onAttributes] at h
    obtain ⟨field, -, value, -, h⟩ := Findings.mem_onAttributes_iff.1 h
    exact (Findings.concerns_of_mem_judgeExpression h).aspect
  | depth => exact ((Findings.atMostOne_ofDepth rules depth).of_mem h).aspect
  | children => exact ((Findings.atMostOne_ofChildren rules node).of_mem h).aspect

/-- The findings on one aspect, picked out of all findings on the node. -/
theorem Node.filter_findings_aspect (rules : RuleSet) (parent : Option Node) (depth : Nat)
    (node : Node) (aspect : Aspect) :
    (node.findings rules parent depth).filter (·.aspect? = some aspect) =
      node.findingsOn rules parent depth aspect := by
  have hall : (Aspect.all.map some).Nodup := by decide
  rw [findings_eq_flatMap_aspects]
  exact filter_flatMap_of_key some Finding.aspect? hall (fun _ _ _ => aspect?_of_mem_findingsOn)
    (by cases aspect <;> decide)

/-- A finding whose aspect is known was made on that aspect. -/
theorem Node.mem_findings_iff_of_aspect {rules : RuleSet} {parent : Option Node} {depth : Nat}
    {node : Node} {aspect : Aspect} {finding : Finding} (h : finding.aspect? = some aspect) :
    finding ∈ node.findings rules parent depth ↔
      finding ∈ node.findingsOn rules parent depth aspect := by
  rw [← filter_findings_aspect, List.mem_filter, decide_eq_true_iff]
  exact (and_iff_left h).symm

end PanelLayout
