import PanelLayout.Proofs.MissingAttribute
import PanelLayout.Proofs.Rules.Reachable
import PanelLayout.Proofs.Surroundings

/-!
# A container is given a direction

A container without a direction does not distribute by weight, so that the weights of its child nodes
are problems.  When it is given a direction these problems are gone, and nothing else changes: what is
further below looks up to its own parent, and the container itself is told the same.

* `Node.findings_insert_direction` says that nothing is found at the direction.
* `Stop.IsChildWeight` tells the problems that go from all others, and `Stop.filter_walk_childOf` is
  the comparison of a child under both parents.
* `Stop.walk_modify_direction` puts the children together.

`Node.validate_insert_direction` is the comparison of the layouts.
-/

namespace PanelLayout

/-! ## §1 The container itself -/

/-- A new attribute shows in a table only by what is said of its value. -/
theorem Findings.onAttributes_insert {ι : Type} {node : Node} {name : String} {value : AttrValue}
    {table : List ι} {row : ι → String} {judge : ι → AttrValue → List Finding}
    (habsent : node.get? name = none)
    (hsilent : ∀ item ∈ table, row item = name → judge item value = []) :
    onAttributes (node.insert name value) table row judge = onAttributes node table row judge := by
  apply List.flatMap_congr
  intro item hitem
  by_cases hname : row item = name
  · simp only [Node.get?_insert, hname, if_pos, habsent, hsilent item hitem hname]
  · simp only [Node.get?_insert, if_neg hname]

namespace Node

variable {rules : RuleSet} {parent : Option Node} {depth : Nat} {node : Node} {word : String}

/-- Nothing but the tables of lengths and of constraints asks for the direction of a node. -/
theorem direction_notMem_reads {aspect : Aspect} (hlengths : aspect ≠ .lengths)
    (hconstraints : aspect ≠ .constraints) : "direction" ∉ aspect.reads rules := by
  rw [Aspect.reads_eq_builtin hlengths]
  revert hlengths hconstraints
  cases aspect <;> decide

theorem kindTag_insert_direction :
    (node.insert "direction" (.text word)).kindTag = node.kindTag :=
  kindTag_congr (agreeExcept_insert "type" (by decide))

theorem entries_insert_direction :
    (node.insert "direction" (.text word)).entries = node.entries := by
  rw [entries, entries, children?, children?, agreeExcept_insert "children" (by decide)]

/-- A container is told the same when it is given a proper direction. -/
theorem findings_insert_direction (hkind : node.kindTag = .known .container)
    (habsent : node.get? "direction" = none) (hword : word ∈ ["horizontal", "vertical"])
    (hlength : ∀ max, ("direction", max) ∈ rules.maxLengths → word.length ≤ max) :
    (node.insert "direction" (.text word)).findings rules parent depth =
      node.findings rules parent depth := by
  rw [findings_eq_flatMap_aspects, findings_eq_flatMap_aspects]
  apply List.flatMap_congr
  intro aspect _
  cases aspect with
  | lengths =>
    rw [findingsOn, findingsOn, Findings.ofLengths_eq_onAttributes,
      Findings.ofLengths_eq_onAttributes]
    apply Findings.onAttributes_insert habsent
    rintro ⟨field, max⟩ hlimit rfl
    exact if_neg (Nat.not_lt.2 (hlength max hlimit))
  | constraints =>
    rw [findingsOn, findingsOn, Findings.ofConstraints_eq_onAttributes,
      Findings.ofConstraints_eq_onAttributes]
    apply Findings.onAttributes_insert habsent
    intro row hrow hname
    have hwords : ∀ row ∈ Constraint.table, row.1 = "direction" →
        row.2 = .oneOf ["horizontal", "vertical"] := by decide
    have hproblems : Findings.ofWord ["horizontal", "vertical"] (.text word) = [] :=
      if_pos (by simpa [AttrValue.text?] using hword)
    rw [Findings.judgeConstraint, hwords row hrow hname, Findings.ofConstraint, hproblems,
      List.map_nil]
  | forbidden =>
    rw [findingsOn, findingsOn, kindTag_insert_direction, hkind]
    exact ofForbidden_insert (by decide)
  | _ =>
    apply findingsOn_congr (by decide)
    intro name hname
    apply agreeExcept_insert
    exact ne_of_mem_of_not_mem hname (direction_notMem_reads (by decide) (by decide))

/-- With a direction a container distributes by weight, and without one no node does. -/
theorem distributesByWeight_insert_direction (hkind : node.kindTag = .known .container) :
    Findings.distributesByWeight (node.insert "direction" (.text word)) = true := by
  rw [Findings.distributesByWeight, kindTag_insert_direction, hkind, contains, get?_insert,
    if_pos rfl]
  rfl

theorem distributesByWeight_of_no_direction (habsent : node.get? "direction" = none) :
    Findings.distributesByWeight node = false := by
  rw [Findings.distributesByWeight, contains, habsent]
  simp

end Node

/-! ## §2 A child under both parents -/

namespace Node

variable {rules : RuleSet} {parent parent' : Option Node} {depth : Nat} {node : Node}

theorem ne_weight_of_isOwn {problem : Problem} (h : problem.isOwn) :
    problem ≠ .invalidWeightUsage := by
  rintro rfl
  cases h

/-- The problems of weight are found by the check of the weight. -/
theorem filter_findings_weight :
    (node.findings rules parent depth).filter (·.problem = .invalidWeightUsage) =
      Findings.ofWeight parent node := by
  have hweight : (Findings.ofWeight parent node).filter (·.problem = .invalidWeightUsage) =
      Findings.ofWeight parent node := by
    apply List.filter_eq_self.2
    intro finding hfinding
    simp [(eq_of_mem_ofWeight hfinding).2]
  have hdepth : (Findings.ofDepth rules depth).filter (·.problem = .invalidWeightUsage) = [] := by
    apply List.filter_eq_nil_iff.2
    intro finding hfinding
    simp [eq_of_mem_ofDepth hfinding]
  rw [filter_findings_of_drop, hweight, hdepth, List.append_nil]
  intro finding hown
  simpa using ne_weight_of_isOwn hown

/-- Below a parent that distributes by weight a node is told all but a problem of weight. -/
theorem findings_of_distributes (h : parent'.any Findings.distributesByWeight = true)
    (parent : Option Node) :
    node.findings rules parent' depth =
      (node.findings rules parent depth).filter (·.problem ≠ .invalidWeightUsage) := by
  have hall : (node.findings rules parent' depth).filter (fun _ => true) =
      node.findings rules parent' depth := List.filter_eq_self.2 fun _ _ => rfl
  rw [← hall]
  apply filter_findings_congr
  case hkeep => exact fun _ _ => rfl
  case hkeep' =>
    intro finding hown
    simpa using ne_weight_of_isOwn hown
  case hweight =>
    have hnone : Findings.ofWeight parent' node = [] := by simp [Findings.ofWeight, h]
    rw [hnone, List.filter_nil]
    symm
    apply List.filter_eq_nil_iff.2
    intro finding hfinding
    simp [(eq_of_mem_ofWeight hfinding).2]
  case hdepth =>
    apply List.filter_congr
    intro finding hfinding
    simp [eq_of_mem_ofDepth hfinding]

end Node

namespace Stop

variable {rules : RuleSet} {root : Node} {stop : Stop} {node other : Node} {index : Nat}
  {violation : Violation}

/-- The violation is a problem of weight right below the stop. -/
def IsChildWeight (stop : Stop) (violation : Violation) : Prop :=
  stop.steps <+: violation.location.address.steps ∧
    violation.location.address.steps.length = stop.steps.length + 1 ∧
    violation.problem = .invalidWeightUsage

instance (stop : Stop) : DecidablePred stop.IsChildWeight :=
  fun _ => inferInstanceAs (Decidable (_ ∧ _))

section

-- No violation of the list is such a problem.
variable {violations : List Violation} (h : ∀ violation ∈ violations, ¬ stop.IsChildWeight violation)
include h

theorem filter_childWeight_eq_nil : violations.filter (stop.IsChildWeight ·) = [] := by
  apply List.filter_eq_nil_iff.2
  simpa using h

theorem filter_not_childWeight_eq_self :
    violations.filter (¬ stop.IsChildWeight ·) = violations := by
  apply List.filter_eq_self.2
  simpa using h

end

theorem not_isChildWeight_of_mem_violations (h : violation ∈ stop.violations rules) :
    ¬ stop.IsChildWeight violation := by
  intro hweight
  have hlength := hweight.2.1
  rw [address_of_mem_violations h] at hlength
  simp [address] at hlength

/-- Below a child nothing is told of the child's own weight. -/
theorem not_isChildWeight_of_mem_next {entry : Child}
    (h : violation ∈ (stop.childOf node index entry).next.flatMap (walk rules)) :
    ¬ stop.IsChildWeight violation := by
  intro hweight
  obtain ⟨below, hbelow, hviolation⟩ := List.mem_flatMap.1 h
  obtain ⟨child, i, _, -, -, rfl⟩ := mem_next_iff.1 hbelow
  have hle := (isPrefix_of_mem_walk hviolation).length_le
  have hlength := hweight.2.1
  simp only [childOf, List.length_append, List.length_singleton] at hle
  omega

/-- At a child the problems of weight are told apart by what they are. -/
theorem isChildWeight_locate_iff {finding : Finding} :
    stop.IsChildWeight (finding.locate (stop.address.child index)) ↔
      finding.problem = .invalidWeightUsage := by
  simp [IsChildWeight, Finding.locate, Address.child, address]

/-- Under a parent that distributes by weight, all is found from a child on that was found under
another parent, but for the problem of the child's weight. -/
theorem walk_childOf_of_distributes (h : Findings.distributesByWeight other = true)
    (entry : Child) :
    (stop.childOf other index entry).walk rules =
      ((stop.childOf node index entry).walk rules).filter (¬ stop.IsChildWeight ·) := by
  have hnext : (stop.childOf other index entry).next = (stop.childOf node index entry).next :=
    next_congr rfl rfl
  rw [walk_eq, walk_eq, hnext, List.filter_append,
    filter_not_childWeight_eq_self fun _ => not_isChildWeight_of_mem_next]
  congr 1
  cases entry with
  | malformed =>
    symm
    apply filter_not_childWeight_eq_self
    intro violation hviolation
    cases List.mem_singleton.1 hviolation
    simp [IsChildWeight, Walk.malformedAt]
  | node child =>
    rw [violations_childOf, violations_childOf, List.filter_map,
      Node.findings_of_distributes (by simpa using h) (some node)]
    apply congrArg
    apply List.filter_congr
    intro finding _
    simp [isChildWeight_locate_iff]

/-- Under a parent that does not, this problem is found if the child is a node with a weight. -/
theorem filter_walk_childOf (h : Findings.distributesByWeight node = false) (entry : Child) :
    ((stop.childOf node index entry).walk rules).filter (stop.IsChildWeight ·) =
      if entry.hasWeight then [stop.weightViolation index] else [] := by
  rw [walk_eq, List.filter_append, filter_childWeight_eq_nil fun _ => not_isChildWeight_of_mem_next,
    List.append_nil]
  cases entry with
  | malformed => simp [violations, childOf, IsChildWeight, Walk.malformedAt, Child.hasWeight]
  | node child =>
    have hfilter : (child.findings rules (some node) (stop.depth + 1)).filter
          ((stop.IsChildWeight ·) ∘ Finding.locate (stop.address.child index)) =
        Findings.ofWeight (some node) child := by
      refine Eq.trans (List.filter_congr ?_) Node.filter_findings_weight
      intro finding _
      simp [isChildWeight_locate_iff]
    rw [violations_childOf, List.filter_map, hfilter]
    cases hweight : child.contains "weight" <;>
      simp [Findings.ofWeight, Child.hasWeight, h, hweight, Finding.locate, weightViolation]

/-! ## §3 The children together -/

/-- From a container on that is given a direction, all is found that was found before, but for the
problems of its children's weights. -/
theorem walk_modify_direction {word : String} (hnode : stop.entry = .node node)
    (hkind : node.kindTag = .known .container) (habsent : node.get? "direction" = none)
    (hword : word ∈ ["horizontal", "vertical"])
    (hlength : ∀ max, ("direction", max) ∈ rules.maxLengths → word.length ≤ max) :
    (stop.modify (·.insert "direction" (.text word))).walk rules =
      (stop.walk rules).filter (¬ stop.IsChildWeight ·) := by
  have hown : (stop.violations rules).filter (¬ stop.IsChildWeight ·) = stop.violations rules :=
    filter_not_childWeight_eq_self fun _ => not_isChildWeight_of_mem_violations
  have hfound : (node.insert "direction" (.text word)).violationsAt rules stop.address stop.parent
      stop.depth = stop.violations rules := by
    rw [violations_of_node hnode, Node.violationsAt,
      Node.findings_insert_direction hkind habsent hword hlength]
    rfl
  rw [walk_modify_of_entries rules hnode Node.entries_insert_direction, hfound, walk_eq rules stop,
    List.filter_append, hown, flatMap_next hnode, List.filter_flatMap]
  apply congrArg
  apply List.flatMap_congr
  intro pair _
  exact walk_childOf_of_distributes (Node.distributesByWeight_insert_direction hkind) pair.1

/-- Without a direction the problems of the children's weights are those of the child nodes that have
one, in order. -/
theorem filter_walk_childWeight (hnode : stop.entry = .node node)
    (habsent : node.get? "direction" = none) :
    (stop.walk rules).filter (stop.IsChildWeight ·) = stop.weightViolations node := by
  have hown : (stop.violations rules).filter (stop.IsChildWeight ·) = [] :=
    filter_childWeight_eq_nil fun _ => not_isChildWeight_of_mem_violations
  rw [walk_eq, List.filter_append, hown, List.nil_append, flatMap_next hnode,
    List.filter_flatMap]
  apply List.flatMap_congr
  intro pair _
  exact filter_walk_childOf (Node.distributesByWeight_of_no_direction habsent) pair.1

end Stop

/-! ## §4 The layout -/

/-- What is found elsewhere in the layout is no problem of weight right below the stop. -/
theorem Stop.filter_validate_childWeight {rules : RuleSet} {root node : Node} {stop : Stop}
    (hstop : root.start.LeadsTo stop) (hnode : stop.entry = .node node)
    (habsent : node.get? "direction" = none) :
    (root.validate rules).filter (stop.IsChildWeight ·) = stop.weightViolations node := by
  have hbelow : ∀ violation, stop.IsChildWeight violation →
      stop.steps <+: violation.location.address.steps := fun _ h => h.1
  rw [← filter_walk_childWeight hnode habsent, ← filter_validate_below hstop, List.filter_filter]
  apply List.filter_congr
  intro violation _
  by_cases hweight : stop.IsChildWeight violation
  · simp [hweight, hbelow violation hweight]
  · simp [hweight]

theorem Stop.mem_weightViolations_iff {stop : Stop} {node : Node} {violation : Violation} :
    violation ∈ stop.weightViolations node ↔
      ∃ index child, node.entries[index]? = some (.node child) ∧ child.contains "weight" ∧
        violation = stop.weightViolation index := by
  simp only [weightViolations, List.mem_flatMap, Prod.exists, List.mem_zipIdx_iff_getElem?,
    List.mem_ite_nil_right, List.mem_singleton]
  apply Iff.intro
  · intro h
    obtain ⟨entry, index, hget, hweight, rfl⟩ := h
    cases entry with
    | malformed => cases hweight
    | node child => exact ⟨index, child, hget, hweight, rfl⟩
  · intro h
    obtain ⟨index, child, hget, hweight, rfl⟩ := h
    exact ⟨.node child, index, hget, hweight, rfl⟩

/-- The rules that a project can reach do not limit the length of a direction. -/
theorem RuleSet.Reachable.direction_notMem {rules : RuleSet} (h : rules.Reachable) (max : Nat) :
    ("direction", max) ∉ rules.maxLengths := by
  intro hmem
  have hname : "direction" ∈ NamedList.names rules.maxLengths := List.mem_map_of_mem hmem
  rw [h.names_maxLengths] at hname
  exact absurd hname (by decide)

/-- **A direction reaches one level down.**  A container of a layout that has no direction is given
one.  Then the layout has the violations that it had, in the same order, but for those of the
weights right below the container, one for every child node that has a weight.  The weight of the
container itself and the weights further below are told as before.

The direction must not be longer than the rules allow; those that a project can reach do not limit
it. -/
theorem Node.validate_insert_direction {rules : RuleSet} {root node : Node} {stop : Stop}
    {word : String} (hstop : root.start.LeadsTo stop) (hnode : stop.entry = .node node)
    (hkind : node.kindTag = .known .container) (habsent : node.contains "direction" = false)
    (hword : word ∈ ["horizontal", "vertical"]) :
    (rules.Reachable → ∀ max, ("direction", max) ∉ rules.maxLengths) ∧
    ((∀ max, ("direction", max) ∈ rules.maxLengths → word.length ≤ max) →
      (modifyAt (·.insert "direction" (.text word)) stop.steps root).validate rules =
        (root.validate rules).filter (· ∉ stop.weightViolations node)) ∧
    (root.validate rules).filter (· ∈ stop.weightViolations node) = stop.weightViolations node ∧
    (∀ violation, violation ∈ stop.weightViolations node ↔
      ∃ index child, node.entries[index]? = some (.node child) ∧ child.contains "weight" ∧
        violation = stop.weightViolation index) ∧
    ∀ index, (stop.weightViolation index).path =
      stop.address.render ++ (".children[" ++ toString index ++ "]") ++ ".weight" := by
  have hget : node.get? "direction" = none := by simpa [contains] using habsent
  have hfilter : (root.validate rules).filter (stop.IsChildWeight ·) =
      stop.weightViolations node := Stop.filter_validate_childWeight hstop hnode hget
  -- In this list the problems that go are told by what they are.
  have hmem : ∀ violation ∈ root.validate rules,
      stop.IsChildWeight violation ↔ violation ∈ stop.weightViolations node := by
    intro violation hviolation
    simp [← hfilter, hviolation]
  refine ⟨?reachable, ?kept, ?gone, ?members, ?paths⟩
  case reachable => exact fun hreachable => hreachable.direction_notMem
  case kept =>
    intro hlength
    obtain ⟨before, after, hsplit, hmodified⟩ := validate_modifyAt rules hstop
    have houtside : ∀ list ⊆ before ++ after,
        list.filter (¬ stop.IsChildWeight ·) = list := by
      intro list hlist
      apply Stop.filter_not_childWeight_eq_self
      intro violation hviolation hweight
      exact Stop.not_isPrefix_of_split hstop hsplit violation (hlist hviolation) hweight.1
    have hkept : (root.validate rules).filter (¬ stop.IsChildWeight ·) =
        (modifyAt (·.insert "direction" (.text word)) stop.steps root).validate rules := by
      rw [hsplit, hmodified, List.filter_append, List.filter_append,
        houtside before (List.subset_append_left ..), houtside after (List.subset_append_right ..),
        Stop.walk_modify_direction hnode hkind hget hword hlength]
    rw [← hkept]
    apply List.filter_congr
    intro violation hviolation
    simp [hmem violation hviolation]
  case gone =>
    refine Eq.trans (List.filter_congr ?_) hfilter
    intro violation hviolation
    simp [hmem violation hviolation]
  case members => exact fun violation => Stop.mem_weightViolations_iff
  case paths =>
    intro index
    rw [Violation.path, Location.render, Stop.weightViolation, Address.render_child]
    rfl

/-- A container with a weight and without a direction. -/
def Node.weighed (entries : List Child) : Node :=
  ⟨[("type", .text "container"), ("weight", .null), ("children", .children entries)]⟩

/-- Such containers, one in the other. -/
def Node.weighedTower : Node :=
  .weighed [.node (.weighed [.node (.weighed [.node (.weighed [])])])]

/-- The stop at the second of them. -/
def Stop.inWeighedTower : Stop :=
  Node.weighedTower.start.childOf Node.weighedTower 0
    (.node (.weighed [.node (.weighed [.node (.weighed [])])]))

/-- With a direction for the second container the weight of the third is no problem any more. -/
theorem Node.validate_insert_direction_weighedTower :
    weighedTower.start.LeadsTo Stop.inWeighedTower ∧
      ((weighedTower.validate .builtin).filter (·.problem = .invalidWeightUsage)).map
          Violation.path =
        ["root.weight", "root.children[0].weight", "root.children[0].children[0].weight",
          "root.children[0].children[0].children[0].weight"] ∧
      (((modifyAt (·.insert "direction" (.text "vertical")) [0] weighedTower).validate
          .builtin).filter (·.problem = .invalidWeightUsage)).map Violation.path =
        ["root.weight", "root.children[0].weight",
          "root.children[0].children[0].children[0].weight"] := by
  have hstop : weighedTower.start.LeadsTo Stop.inWeighedTower := .single (List.mem_cons_self ..)
  have hpaths : ((weighedTower.validate .builtin).filter (·.problem = .invalidWeightUsage)).map
      Violation.path =
        ["root.weight", "root.children[0].weight", "root.children[0].children[0].weight",
          "root.children[0].children[0].children[0].weight"] := by decide +kernel
  have hword : "vertical" ∈ ["horizontal", "vertical"] := by decide
  obtain ⟨hreachable, hkept, -⟩ := validate_insert_direction hstop rfl (by decide) (by decide) hword
  have hvalidate := hkept fun max hmax => absurd hmax (hreachable .builtin max)
  refine ⟨hstop, hpaths, ?_⟩
  rw [show [0] = Stop.inWeighedTower.steps from rfl, hvalidate]
  decide +kernel

end PanelLayout
