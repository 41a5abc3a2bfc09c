import Mathlib.Tactic.Tauto
import PanelLayout.Proofs.Addresses
import PanelLayout.Proofs.Expression.Problems
import PanelLayout.Walk

/-!
# What a node shows by itself

Of the findings on a node two kinds depend on where it stands: its weight on the parent, and its
depth.  All others are its own.

* `Findings.isOwnOf_of_mem_ownFindings` says of each own finding that it stands at a place which
  the node has, and that it is no problem of the surroundings.
* `Node.filter_findings_congr` compares the findings on one node in two surroundings.
-/

namespace PanelLayout

/-! ## §1 Places of a node -/

def Axis.index : Axis → Nat
  | x => 0
  | y => 1

/-- The node has this place: the attribute is there, and for a component it is a list that is
long enough. -/
def Place.On (node : Node) : Place → Prop
  | .node => True
  | .field name => node.contains name
  | .component name axis => ∃ items, node.get? name = some (.list items) ∧ axis.index < items.length

/-- A problem that does not come of the surroundings: neither of a text that is no document, nor
of an entry that is no node, nor of a node's parent or depth. -/
def Problem.isOwn : Problem → Bool
  | .unparsableDocument _ | .malformedChildEntry | .invalidWeightUsage | .nestingTooDeep _ _ => false
  | _ => true

/-- Rules whose length-limited fields have plain names. -/
def RuleSet.HasPlainFields (rules : RuleSet) : Prop :=
  ∀ field max, (field, max) ∈ rules.maxLengths → isPlainName field

/-- A finding that a node shows by itself. -/
structure Finding.IsOwnOf (rules : RuleSet) (node : Node) (finding : Finding) : Prop where
  own : finding.problem.isOwn
  place : finding.place.On node
  plain : rules.HasPlainFields → finding.place.IsPlain

/-- The findings that a node shows by itself. -/
def Node.ownFindings (rules : RuleSet) (node : Node) : List Finding :=
  Findings.ofKind node.kindTag ++ Findings.ofLengths rules node ++
    Findings.ofVocabulary node.kindTag node ++ Findings.ofValues rules node.kindTag node ++
    Findings.ofExpressions rules node ++ Findings.ofChildren rules node

namespace Findings

variable {rules : RuleSet} {node : Node} {finding : Finding}

/-- A finding at an attribute is the node's own if the node has the attribute. -/
theorem isOwnOf_field {name : String} {value : AttrValue} {problem : Problem}
    (hget : node.get? name = some value) (hname : rules.HasPlainFields → isPlainName name)
    (hown : problem.isOwn) :
    Finding.IsOwnOf rules node ⟨.field name, problem⟩ where
  own := hown
  place := by
    show node.contains name
    rw [Node.contains, hget]
    rfl
  plain := hname

/-! ## §2 Kind, lengths and vocabulary -/

theorem isOwnOf_of_mem_ofKind {tag : KindTag} (h : finding ∈ ofKind tag) :
    finding.IsOwnOf rules node := by
  cases tag with
  | unknown text =>
    rw [ofKind, List.mem_singleton] at h
    subst h
    exact ⟨rfl, trivial, fun _ => trivial⟩
  | _ => simp [ofKind] at h

theorem isOwnOf_of_mem_ofLengths (h : finding ∈ ofLengths rules node) :
    finding.IsOwnOf rules node := by
  obtain ⟨⟨field, max⟩, hmem, h⟩ := List.mem_flatMap.1 h
  dsimp only [ofLength] at h
  split at h
  · simp at h
  · rename_i value hget
    rw [List.mem_ite_nil_right, List.mem_singleton] at h
    obtain ⟨-, rfl⟩ := h
    -- The rules give this name; at all other places the names are constants.
    exact isOwnOf_field hget (fun hrules => hrules field max hmem) rfl

theorem isOwnOf_of_mem_ofVocabulary {tag : KindTag} (h : finding ∈ ofVocabulary tag node) :
    finding.IsOwnOf rules node := by
  cases tag with
  | missing =>
    rw [ofVocabulary, List.mem_singleton] at h
    subst h
    exact ⟨rfl, trivial, fun _ => trivial⟩
  | unknown text => simp [ofVocabulary] at h
  | known kind =>
    rcases List.mem_append.1 h with h | h
    · obtain ⟨name, -, rfl⟩ := List.mem_map.1 h
      exact ⟨rfl, trivial, fun _ => trivial⟩
    · obtain ⟨name, -, rfl⟩ := List.mem_map.1 h
      exact ⟨rfl, trivial, fun _ => trivial⟩

/-! ## §3 Values -/

theorem isPlainName_of_mem_coordinates {kind : NodeKind} {name : String}
    (h : name ∈ kind.coordinates) : isPlainName name := by
  revert h
  revert name
  cases kind <;> decide

theorem isPlainName_of_mem_table {name : String} {constraint : Constraint}
    (h : (name, constraint) ∈ Constraint.table) : isPlainName name := by
  have hall : ∀ known ∈ Constraint.table.map (·.1), isPlainName known := by decide
  exact hall name (List.mem_map.2 ⟨_, h, rfl⟩)

/-- Only components that are there are given an axis. -/
theorem index_lt_of_mem_withAxes {items : List AttrValue} {item : AttrValue} {axis : Axis}
    (h : (item, axis) ∈ withAxes items) : axis.index < items.length := by
  match items with
  | [] => simp [withAxes] at h
  | [_] =>
    -- A single item is paired with the first axis only.
    simp only [withAxes, List.zip_cons_cons, List.zip_nil_left, List.mem_singleton,
      Prod.mk.injEq] at h
    simp [h.2, Axis.index]
  | _ :: _ :: _ => cases axis <;> simp [Axis.index]

/-- A finding at a component is the node's own if the coordinate is long enough. -/
theorem isOwnOf_component {name : String} {items : List AttrValue} {item : AttrValue} {axis : Axis}
    {problem : Problem} (hget : node.get? name = some (.list items)) (hname : isPlainName name)
    (hmem : (item, axis) ∈ withAxes items) (hown : problem.isOwn) :
    Finding.IsOwnOf rules node ⟨.component name axis, problem⟩ where
  own := hown
  place := ⟨items, hget, index_lt_of_mem_withAxes hmem⟩
  plain _ := hname

theorem isOwnOf_of_mem_ofCoordinate {absolute : Bool} {name : String} {value : AttrValue}
    (hget : node.get? name = some value) (hname : isPlainName name)
    (h : finding ∈ ofCoordinate rules absolute name value) : finding.IsOwnOf rules node := by
  cases value with
  | list items =>
    simp only [ofCoordinate, List.mem_append] at h
    rcases h with (hshape | hsigns) | hbounds
    · -- The shape is wrong: the finding stands at the attribute.
      rw [List.mem_ite_nil_left, List.mem_singleton] at hshape
      obtain ⟨-, rfl⟩ := hshape
      exact isOwnOf_field hget (fun _ => hname) rfl
    · -- A component is no number, or is negative: the finding stands at the component.
      obtain ⟨⟨item, axis⟩, hmem, h⟩ := List.mem_flatMap.1 hsigns
      dsimp only [ofComponent] at h
      split at h
      · rw [List.mem_singleton] at h
        subst h
        exact isOwnOf_component hget hname hmem rfl
      · rw [List.mem_ite_nil_left, List.mem_singleton] at h
        obtain ⟨-, rfl⟩ := h
        exact isOwnOf_component hget hname hmem rfl
    · -- A component lies outside the canvas.
      rw [List.mem_ite_nil_right] at hbounds
      obtain ⟨⟨item, axis⟩, hmem, h⟩ := List.mem_flatMap.1 hbounds.2
      dsimp only [ofAbsoluteComponent] at h
      split at h
      · simp at h
      · rw [List.mem_ite_nil_left, List.mem_singleton] at h
        obtain ⟨-, rfl⟩ := h
        exact isOwnOf_component hget hname hmem rfl
  | _ =>
    rw [ofCoordinate, List.mem_singleton] at h
    · subst h
      exact isOwnOf_field hget (fun _ => hname) rfl
    · simp

theorem isOwn_of_mem_ofConstraint {constraint : Constraint} {value : AttrValue} {problem : Problem}
    (h : problem ∈ ofConstraint rules constraint value) : problem.isOwn := by
  -- Two constraints are ranges.
  have hrange : ∀ {numeric min max}, problem ∈ ofRange numeric min max value → problem.isOwn := by
    intro numeric min max h
    dsimp only [ofRange] at h
    split at h
    · rw [List.mem_singleton.1 h]
      rfl
    · rw [List.mem_ite_nil_left, List.mem_singleton] at h
      rw [h.2]
      rfl
  cases constraint with
  | oneOf words =>
    rw [ofConstraint, ofWord, List.mem_ite_nil_left, List.mem_singleton] at h
    rw [h.2]
    rfl
  | range numeric min max => exact hrange h
  | canvasWidth => exact hrange h
  | boolean =>
    cases value with
    | bool b => simp [ofConstraint, ofBoolean] at h
    | _ =>
      rw [ofConstraint, ofBoolean, List.mem_singleton] at h
      · rw [h]
        rfl
      · simp
  | fontSize min max =>
    rw [ofConstraint, ofFontSize] at h
    split at h
    · rw [List.mem_singleton.1 h]
      rfl
    · rw [List.mem_ite_nil_right, List.mem_singleton] at h
      rw [h.2]
      rfl

theorem isOwnOf_of_mem_ofValues {tag : KindTag} (h : finding ∈ ofValues rules tag node) :
    finding.IsOwnOf rules node := by
  simp only [ofValues, List.mem_append] at h
  rcases h with (hcoordinates | hconstraints) | hplacement
  · obtain ⟨name, hmem, h⟩ := List.mem_flatMap.1 hcoordinates
    split at h
    · rename_i value hget
      -- Without a kind no attribute is a coordinate.
      cases hkind : tag.kind? with
      | none => simp [hkind] at hmem
      | some kind =>
        rw [hkind] at hmem
        exact isOwnOf_of_mem_ofCoordinate hget (isPlainName_of_mem_coordinates hmem) h
    · simp at h
  · obtain ⟨⟨name, constraint⟩, hmem, h⟩ := List.mem_flatMap.1 hconstraints
    dsimp only at h
    split at h
    · rename_i value hget
      obtain ⟨problem, hproblem, rfl⟩ := List.mem_map.1 h
      exact isOwnOf_field hget (fun _ => isPlainName_of_mem_table hmem)
        (isOwn_of_mem_ofConstraint hproblem)
    · simp at h
  · dsimp only [ofPlacement] at hplacement
    rw [List.mem_ite_nil_right, List.mem_singleton, Bool.and_eq_true] at hplacement
    obtain ⟨⟨habs, -⟩, rfl⟩ := hplacement
    have hplain : isPlainName "is_absolute" := by decide
    exact ⟨rfl, habs, fun _ => hplain⟩

/-! ## §4 Expressions and children -/

theorem isOwn_of_mem_ofExpression {field : String} {value : AttrValue} {problem : Problem}
    (h : problem ∈ ofExpression rules field value) : problem.isOwn := by
  rcases problem_of_mem_ofExpression h with rfl | ⟨_, _, rfl⟩ | ⟨_, _, rfl⟩ | ⟨_, _, rfl⟩ <;> rfl

theorem isOwnOf_of_mem_ofExpressions (h : finding ∈ ofExpressions rules node) :
    finding.IsOwnOf rules node := by
  obtain ⟨field, hmem, h⟩ := List.mem_flatMap.1 h
  split at h
  · rename_i value hget
    obtain ⟨problem, hproblem, rfl⟩ := List.mem_map.1 h
    have hplain : ∀ known ∈ expressionFields, isPlainName known := by decide
    exact isOwnOf_field hget (fun _ => hplain field hmem) (isOwn_of_mem_ofExpression hproblem)
  · simp at h

theorem isOwnOf_of_mem_ofChildren (h : finding ∈ ofChildren rules node) :
    finding.IsOwnOf rules node := by
  have hplain : isPlainName "children" := by decide
  unfold ofChildren at h
  split at h
  · simp at h
  · simp at h
  · rename_i entries hget
    dsimp only at h
    rw [List.mem_ite_nil_right, List.mem_singleton] at h
    obtain ⟨-, rfl⟩ := h
    exact isOwnOf_field hget (fun _ => hplain) rfl
  · rename_i value _ _ hget
    rw [List.mem_singleton] at h
    subst h
    exact isOwnOf_field hget (fun _ => hplain) rfl

/-- Every own finding of a node stands at a place that the node has, under a plain name if the
rules have such names, and is no problem of the surroundings. -/
theorem isOwnOf_of_mem_ownFindings (h : finding ∈ node.ownFindings rules) :
    finding.IsOwnOf rules node := by
  simp only [Node.ownFindings, List.mem_append] at h
  rcases h with ((((hkind | hlengths) | hvocabulary) | hvalues) | hexpressions) | hchildren
  · exact isOwnOf_of_mem_ofKind hkind
  · exact isOwnOf_of_mem_ofLengths hlengths
  · exact isOwnOf_of_mem_ofVocabulary hvocabulary
  · exact isOwnOf_of_mem_ofValues hvalues
  · exact isOwnOf_of_mem_ofExpressions hexpressions
  · exact isOwnOf_of_mem_ofChildren hchildren

end Findings

/-! ## §5 All findings of a node -/

namespace Node

variable {rules : RuleSet} {parent : Option Node} {depth : Nat} {node : Node}

/-- A finding on a node is its own, or on its weight, or on its depth. -/
theorem mem_findings_iff {finding : Finding} :
    finding ∈ node.findings rules parent depth ↔
      finding ∈ node.ownFindings rules ∨ finding ∈ Findings.ofWeight parent node ∨
        finding ∈ Findings.ofDepth rules depth := by
  simp only [findings, ownFindings, Findings.ofNesting, List.mem_append]
  tauto

theorem eq_of_mem_ofWeight {finding : Finding} (h : finding ∈ Findings.ofWeight parent node) :
    node.contains "weight" ∧ finding = ⟨.field "weight", .invalidWeightUsage⟩ := by
  rw [Findings.ofWeight, List.mem_ite_nil_right, List.mem_singleton, Bool.and_eq_true] at h
  exact ⟨h.1.1, h.2⟩

theorem eq_of_mem_ofDepth {finding : Finding} (h : finding ∈ Findings.ofDepth rules depth) :
    finding = ⟨.node, .nestingTooDeep depth rules.limits.maxNodeDepth⟩ := by
  dsimp only [Findings.ofDepth] at h
  rw [List.mem_ite_nil_right, List.mem_singleton] at h
  exact h.2

/-- Between the own findings of a node stand the one on its weight and the one on its depth. -/
theorem findings_shape (rules : RuleSet) (node : Node) :
    ∃ before between behind : List Finding,
      (∀ finding ∈ before ++ between ++ behind, finding.IsOwnOf rules node) ∧
      ∀ parent depth, node.findings rules parent depth =
        before ++ Findings.ofWeight parent node ++ between ++ Findings.ofDepth rules depth ++
          behind := by
  -- Four checks come before the weight; depth and children are the two halves of the last one.
  refine ⟨Findings.ofKind node.kindTag ++ Findings.ofLengths rules node ++
    Findings.ofVocabulary node.kindTag node ++ Findings.ofValues rules node.kindTag node,
    Findings.ofExpressions rules node, Findings.ofChildren rules node, ?_, ?_⟩
  · intro finding hmem
    exact Findings.isOwnOf_of_mem_ownFindings hmem
  · intro parent depth
    simp only [findings, Findings.ofNesting, List.append_assoc]

/-- What is left of the findings when no own finding is dropped depends on the surroundings only
through the weight and the depth. -/
theorem filter_findings_congr {parent' : Option Node} {depth' : Nat} {keep keep' : Finding → Bool}
    (hkeep : ∀ finding, finding.problem.isOwn → keep finding)
    (hkeep' : ∀ finding, finding.problem.isOwn → keep' finding)
    (hweight : (Findings.ofWeight parent node).filter keep =
      (Findings.ofWeight parent' node).filter keep')
    (hdepth : (Findings.ofDepth rules depth).filter keep =
      (Findings.ofDepth rules depth').filter keep') :
    (node.findings rules parent depth).filter keep =
      (node.findings rules parent' depth').filter keep' := by
  obtain ⟨before, between, behind, hown, hshape⟩ := findings_shape rules node
  have hcongr : ∀ findings ⊆ before ++ between ++ behind,
      findings.filter keep = findings.filter keep' := by
    intro findings hsub
    refine List.filter_congr fun finding hmem => ?_
    have hproblem := (hown finding (hsub hmem)).own
    rw [hkeep finding hproblem, hkeep' finding hproblem]
  -- The own findings agree part by part, and the two parts between them by assumption.
  have hbefore := hcongr before (by simp)
  have hbetween := hcongr between (by simp)
  have hbehind := hcongr behind (by simp)
  simp only [hshape, List.filter_append, hbefore, hbetween, hbehind, hweight, hdepth]

/-- What is left of the findings when all own findings are dropped comes of the weight and of the
depth. -/
theorem filter_findings_of_drop {keep : Finding → Bool}
    (hdrop : ∀ finding, finding.problem.isOwn → keep finding = false) :
    (node.findings rules parent depth).filter keep =
      (Findings.ofWeight parent node).filter keep ++ (Findings.ofDepth rules depth).filter keep := by
  obtain ⟨before, between, behind, hown, hshape⟩ := findings_shape rules node
  have hnil : ∀ findings ⊆ before ++ between ++ behind, findings.filter keep = [] := by
    intro findings hsub
    rw [List.filter_eq_nil_iff]
    intro finding hmem
    simp [hdrop finding (hown finding (hsub hmem)).own]
  have hbefore := hnil before (by simp)
  have hbetween := hnil between (by simp)
  have hbehind := hnil behind (by simp)
  simp only [hshape, List.filter_append, hbefore, hbetween, hbehind, List.nil_append,
    List.append_nil]

end Node

end PanelLayout
