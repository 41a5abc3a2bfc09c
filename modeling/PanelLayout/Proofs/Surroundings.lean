import PanelLayout.Proofs.Walk.Subtree

/-!
# What a subtree's surroundings do to it

The violations that a layout has from one node on stand together in the list, and they are those
of the node as a layout of its own, told from another address, as far as they do not come of the
surroundings.  This module adds which of them do:

* the weight of a node, which needs a parent that distributes by weight;
* the depth of a node, which is told of every node below the limit, once.
-/

namespace PanelLayout

/-! ## §1 The block of a subtree -/

namespace Stop

variable {rules : RuleSet} {root : Node} {stop : Stop}

/-- What is found from a stop on has an address that begins like the stop's. -/
theorem isPrefix_of_mem_walk {violation : Violation} (h : violation ∈ stop.walk rules) :
    stop.steps <+: violation.location.address.steps := by
  rw [walk_eq_flatMap] at h
  obtain ⟨inner, hinner, hviolation⟩ := List.mem_flatMap.1 h
  rw [address_of_mem_violations hviolation]
  exact isPrefix_of_leadsTo (mem_preorder_iff.1 hinner)

/-- What a layout has from one stop on stands together, and nothing else has an address that
begins like the stop's. -/
theorem validate_split (hstop : root.start.LeadsTo stop) :
    ∃ before after,
      root.validate rules = before ++ stop.walk rules ++ after ∧
      (∀ violation ∈ stop.walk rules, stop.steps <+: violation.location.address.steps) ∧
      ∀ violation ∈ before ++ after, ¬ stop.steps <+: violation.location.address.steps := by
  obtain ⟨before, after, hsplit⟩ := preorder_split hstop
  refine ⟨before.flatMap (violations rules), after.flatMap (violations rules), ?_, ?_, ?_⟩
  · rw [Node.validate_eq_flatMap, hsplit, List.flatMap_append, List.flatMap_append, walk_eq_flatMap]
  · exact fun violation => isPrefix_of_mem_walk
  · intro violation hviolation hprefix
    rw [← List.flatMap_append] at hviolation
    obtain ⟨other, hother, hviolation⟩ := List.mem_flatMap.1 hviolation
    rw [address_of_mem_violations hviolation] at hprefix
    -- A stop with such indices lies below `stop`, so the list would name it twice.
    have hmem : other ∈ root.start.preorder := by
      rw [hsplit]
      simp only [List.mem_append] at hother ⊢
      tauto
    have hbelow : other ∈ stop.preorder :=
      mem_preorder_iff.2 (leadsTo_of_isPrefix hstop (mem_preorder_iff.1 hmem) hprefix)
    have hnodup : (before ++ stop.preorder ++ after).Nodup := by
      rw [← hsplit]
      exact (nodup_preorder_steps root.start).of_map
    simp only [List.nodup_append, List.mem_append] at hnodup hother
    obtain ⟨⟨-, -, hbefore⟩, -, hafter⟩ := hnodup
    rcases hother with hother | hother
    · exact hbefore other hother other hbelow rfl
    · exact hafter other (.inr hbelow) other hother rfl

theorem filter_walk_below (rules : RuleSet) (stop : Stop) :
    (stop.walk rules).filter (stop.steps <+: ·.location.address.steps) = stop.walk rules := by
  apply List.filter_eq_self.2
  intro violation hviolation
  simpa using isPrefix_of_mem_walk hviolation

/-- What has an address that begins like the stop's was found from the stop on. -/
theorem filter_validate_below (hstop : root.start.LeadsTo stop) :
    (root.validate rules).filter (stop.steps <+: ·.location.address.steps) = stop.walk rules := by
  obtain ⟨before, after, hsplit, -, houtside⟩ := validate_split hstop
  have hbefore : before.filter (stop.steps <+: ·.location.address.steps) = [] := by
    apply List.filter_eq_nil_iff.2
    intro violation hviolation
    simpa using houtside violation (List.mem_append_left _ hviolation)
  have hafter : after.filter (stop.steps <+: ·.location.address.steps) = [] := by
    apply List.filter_eq_nil_iff.2
    intro violation hviolation
    simpa using houtside violation (List.mem_append_right _ hviolation)
  rw [hsplit, List.filter_append, List.filter_append, hbefore, hafter, List.nil_append,
    List.append_nil, filter_walk_below]

/-- However what is found from a stop on is told apart, the rest is found elsewhere. -/
theorem not_isPrefix_of_split (hstop : root.start.LeadsTo stop) {before after : List Violation}
    (hsplit : root.validate rules = before ++ stop.walk rules ++ after) :
    ∀ violation ∈ before ++ after, ¬ stop.steps <+: violation.location.address.steps := by
  have hfilter : (root.validate rules).filter (stop.steps <+: ·.location.address.steps) =
      stop.walk rules := filter_validate_below hstop
  rw [hsplit, List.filter_append, List.filter_append, filter_walk_below] at hfilter
  -- What is kept of the rest is as long as nothing.
  have hlength := congrArg List.length hfilter
  simp only [List.length_append] at hlength
  have hnil : (before ++ after).filter (stop.steps <+: ·.location.address.steps) = [] := by
    apply List.eq_nil_of_length_eq_zero
    rw [List.filter_append, List.length_append]
    omega
  intro violation hviolation
  simpa using List.filter_eq_nil_iff.1 hnil violation hviolation

/-- The violations with the address of a stop are those that are found there. -/
theorem mem_violations_iff (hstop : root.start.LeadsTo stop) {violation : Violation} :
    violation ∈ stop.violations rules ↔
      violation ∈ root.validate rules ∧ violation.location.address = stop.address := by
  constructor
  · intro h
    exact ⟨Node.mem_validate_iff.2 ⟨stop, hstop, h⟩, address_of_mem_violations h⟩
  · rintro ⟨h, haddress⟩
    obtain ⟨other, hother, h⟩ := Node.mem_validate_iff.1 h
    have hsteps : other.steps = stop.steps := by
      rw [address_of_mem_violations h] at haddress
      exact congrArg Address.steps haddress
    rw [← eq_of_steps_eq hother hstop hsteps]
    exact h

/-- A layout is told of a problem at a place of a node if that was found on the node. -/
theorem mem_validate_iff_of_node (hstop : root.start.LeadsTo stop) {node : Node}
    (hnode : stop.entry = .node node) {place : Place} {problem : Problem} :
    ⟨⟨stop.address, place⟩, problem⟩ ∈ root.validate rules ↔
      ⟨place, problem⟩ ∈ node.findings rules stop.parent stop.depth := by
  constructor
  · intro h
    have hviolation : ⟨⟨stop.address, place⟩, problem⟩ ∈ stop.violations rules :=
      (mem_violations_iff hstop).2 ⟨h, rfl⟩
    rw [violations_of_node hnode] at hviolation
    obtain ⟨finding, hfinding, hlocate⟩ := List.mem_map.1 hviolation
    cases hlocate
    exact hfinding
  · intro h
    refine Node.mem_validate_iff.2 ⟨stop, hstop, ?_⟩
    rw [violations_of_node hnode]
    exact List.mem_map.2 ⟨_, h, rfl⟩

end Stop

/-- A violation of a layout that stands elsewhere differs only in how its path begins. -/
theorem Violation.path_under {rules : RuleSet} {root : Node} {violation : Violation}
    (h : violation ∈ root.validate rules) (outer : List Nat) :
    ∃ rest, violation.path = "root" ++ rest ∧
      (violation.under outer).path = Address.render ⟨"root", outer⟩ ++ rest := by
  obtain ⟨stop, -, h⟩ := Node.mem_validate_iff.1 h
  have hbase : violation.location.address.base = "root" := by
    rw [Stop.address_of_mem_violations h]
    rfl
  refine ⟨String.join (violation.location.address.steps.map Address.renderStep) ++
    violation.location.place.render, ?_, ?_⟩
  · simp [path, Location.render, Address.render, hbase, String.append_assoc]
  · simp [path, Location.render, Address.render, under, hbase, String.join_append,
      String.append_assoc]

/-! ## §2 Weight -/

namespace Stop

variable {rules : RuleSet} {root : Node} {stop : Stop}

/-- The walk comes to a stop from the root, or from a node that then is the stop's parent. -/
theorem eq_start_or_mem_next (hstop : root.start.LeadsTo stop) :
    stop = root.start ∨
      ∃ outer above, root.start.LeadsTo outer ∧ outer.entry = .node above ∧ stop ∈ outer.next := by
  rcases Relation.ReflTransGen.cases_tail hstop with heq | ⟨outer, houter, hnext⟩
  · exact .inl heq
  · obtain ⟨above, -, -, hentry, -, -⟩ := mem_next_iff.1 hnext
    exact .inr ⟨outer, above, houter, hentry, hnext⟩

theorem parent_eq_of_mem_next {outer : Stop} {above : Node} (hentry : outer.entry = .node above)
    (h : stop ∈ outer.next) : stop.parent = some above := by
  obtain ⟨node, index, entry, hnode, -, rfl⟩ := mem_next_iff.1 h
  rw [hentry] at hnode
  cases hnode
  rfl

/-- A problem of weight is found at a node that has a weight and no parent that distributes. -/
theorem exists_weight_iff {node : Node} (hnode : stop.entry = .node node) :
    (∃ violation ∈ stop.violations rules, violation.problem = .invalidWeightUsage) ↔
      node.contains "weight" ∧ ∀ above, stop.parent = some above → ¬ above.Directs := by
  have hweight : Findings.ofWeight stop.parent node ≠ [] ↔
      node.contains "weight" ∧ ∀ above, stop.parent = some above → ¬ above.Directs := by
    simp [Findings.ofWeight_eq_nil_iff]
  rw [← hweight, violations_of_node hnode]
  constructor
  · rintro ⟨violation, hviolation, hproblem⟩
    obtain ⟨finding, hfinding, rfl⟩ := List.mem_map.1 hviolation
    rcases Node.mem_findings_iff.1 hfinding with hown | hfound | hdepth
    · -- No problem of its own is a problem of weight.
      have hfalse := (Findings.isOwnOf_of_mem_ownFindings hown).own
      rw [show finding.problem = .invalidWeightUsage from hproblem] at hfalse
      cases hfalse
    · exact List.ne_nil_of_mem hfound
    · rw [Node.eq_of_mem_ofDepth hdepth] at hproblem
      cases hproblem
  · intro hne
    obtain ⟨finding, hfinding⟩ := List.exists_mem_of_ne_nil _ hne
    refine ⟨finding.locate stop.address, ?_, ?_⟩
    · exact List.mem_map.2 ⟨finding, Node.mem_findings_iff.2 (.inr (.inl hfinding)), rfl⟩
    · rw [(Node.eq_of_mem_ofWeight hfinding).2]
      rfl

/-- In a layout, a node's weight is a problem unless the node above distributes by weight. -/
theorem exists_weight_validate_iff (hstop : root.start.LeadsTo stop) {node : Node}
    (hnode : stop.entry = .node node) :
    (∃ violation ∈ root.validate rules, violation.location.address = stop.address ∧
        violation.problem = .invalidWeightUsage) ↔
      node.contains "weight" ∧ (stop = root.start ∨
        ∃ outer above, root.start.LeadsTo outer ∧ outer.entry = .node above ∧
          stop ∈ outer.next ∧ ¬ above.Directs) := by
  have hfound : (∃ violation ∈ root.validate rules, violation.location.address = stop.address ∧
        violation.problem = .invalidWeightUsage) ↔
      ∃ violation ∈ stop.violations rules, violation.problem = .invalidWeightUsage := by
    simp only [mem_violations_iff hstop, and_assoc]
  rw [hfound, exists_weight_iff hnode]
  refine and_congr_right fun _ => ?_
  constructor
  · -- A stop that is not the root has a parent, which does not distribute.
    intro hparent
    rcases eq_start_or_mem_next hstop with heq | ⟨outer, above, houter, hentry, hnext⟩
    · exact .inl heq
    · have hdirects := hparent above (parent_eq_of_mem_next hentry hnext)
      exact .inr ⟨outer, above, houter, hentry, hnext, hdirects⟩
  · -- The root has no parent, and any other stop only the one it is an entry of.
    intro hplace above hparent
    rcases hplace with heq | ⟨outer, above', -, hentry, hnext, hdirects⟩
    · rw [heq] at hparent
      cases hparent
    · rw [parent_eq_of_mem_next hentry hnext] at hparent
      cases hparent
      exact hdirects

end Stop

/-! ## §3 Depth -/

namespace Stop

variable {rules : RuleSet} {root : Node} {stop : Stop}

/-- The stop is a node below the limit on depth. -/
def isTooDeep (rules : RuleSet) (stop : Stop) : Bool :=
  match stop.entry with
  | .node _ => rules.limits.maxNodeDepth < stop.depth
  | .malformed => false

def tooDeep (rules : RuleSet) (stop : Stop) : Violation :=
  ⟨⟨stop.address, .node⟩, .nestingTooDeep stop.depth rules.limits.maxNodeDepth⟩

/-- A depth is a problem at the stops that are too deep, once at each. -/
theorem filter_violations_nesting (rules : RuleSet) (stop : Stop) :
    (stop.violations rules).filter (·.problem.isNestingTooDeep) =
      if stop.isTooDeep rules then [stop.tooDeep rules] else [] := by
  cases hentry : stop.entry with
  | malformed => simp [violations, isTooDeep, hentry, Walk.malformedAt, Problem.isNestingTooDeep]
  | node node =>
    have hdrop : ∀ finding : Finding, finding.problem.isOwn →
        ((·.problem.isNestingTooDeep) ∘ Finding.locate stop.address) finding = false := by
      intro finding hown
      exact Problem.isNestingTooDeep_eq_false_of_isOwn hown
    rw [violations_of_node hentry, Node.violationsAt, List.filter_map,
      Node.filter_findings_of_drop hdrop]
    -- Of the two findings that come of the surroundings only the depth is kept.
    have hweight : (Findings.ofWeight stop.parent node).filter
        ((·.problem.isNestingTooDeep) ∘ Finding.locate stop.address) = [] := by
      rw [List.filter_eq_nil_iff]
      intro finding hmem
      rw [(Node.eq_of_mem_ofWeight hmem).2]
      simp [Finding.locate, Problem.isNestingTooDeep]
    rw [hweight, Findings.ofDepth, isTooDeep, hentry]
    by_cases hdepth : rules.limits.maxNodeDepth < stop.depth
    · simp [hdepth, Finding.locate, List.filter_cons, Problem.isNestingTooDeep, tooDeep]
    · simp [hdepth]

/-- In a layout, the problems of depth are those of the stops that are too deep, in order. -/
theorem filter_validate_nesting (rules : RuleSet) (root : Node) :
    (root.validate rules).filter (·.problem.isNestingTooDeep) =
      (root.start.preorder.filter (isTooDeep rules)).map (tooDeep rules) := by
  rw [Node.validate_eq_flatMap, List.filter_flatMap]
  induction root.start.preorder with
  | nil => rfl
  | cons stop rest ih =>
    rw [List.flatMap_cons, ih, filter_violations_nesting, List.filter_cons]
    split <;> rfl

theorem isTooDeep_iff :
    stop.isTooDeep rules = true ↔
      ∃ node, stop.entry = .node node ∧ rules.limits.maxNodeDepth < stop.depth := by
  unfold isTooDeep
  cases stop.entry <;> simp

theorem mem_filter_nesting_iff {violation : Violation} :
    violation ∈ (root.validate rules).filter (·.problem.isNestingTooDeep) ↔
      ∃ deep node, root.start.LeadsTo deep ∧ deep.entry = .node node ∧
        rules.limits.maxNodeDepth < deep.depth ∧ violation = deep.tooDeep rules := by
  rw [filter_validate_nesting]
  simp only [List.mem_map, List.mem_filter, mem_preorder_iff, isTooDeep_iff]
  constructor
  · rintro ⟨deep, ⟨hdeep, node, hentry, hdepth⟩, rfl⟩
    exact ⟨deep, node, hdeep, hentry, hdepth, rfl⟩
  · rintro ⟨deep, node, hdeep, hentry, hdepth, rfl⟩
    exact ⟨deep, ⟨hdeep, node, hentry, hdepth⟩, rfl⟩

end Stop

/-! ## §4 A subtree in its layout -/

/-- **A subtree knows its surroundings by weight and depth only.**  From a node of a layout on, the
violations stand together in the list.  They are those of the node as a layout of its own, with the
path of the node in place of `root`, when all problems of depth and the node's own problem of
weight are left out on both sides.

What is left out is told as well.  The node's weight is a problem if it is there and the node is
the root, or the node above it does not distribute by weight.  And the problems of depth are
one for every node below the limit, however far below, and no others. -/
theorem Node.validate_subtree (rules : RuleSet) {root node : Node} {stop : Stop}
    (hstop : root.start.LeadsTo stop) (hnode : stop.entry = .node node) :
    (∃ before block after,
      root.validate rules = before ++ block ++ after ∧
      block = (Walk.visit rules stop.address stop.parent stop.depth #[] node).toList ∧
      (∀ violation ∈ block, stop.steps <+: violation.location.address.steps) ∧
      (∀ violation ∈ before ++ after, ¬ stop.steps <+: violation.location.address.steps) ∧
      block.filter (!·.isAmbient stop.address) =
        ((node.validate rules).filter (!·.isAmbient .root)).map (Violation.under stop.steps)) ∧
    (∀ violation ∈ node.validate rules, ∃ rest,
      violation.path = "root" ++ rest ∧
      (violation.under stop.steps).path = stop.address.render ++ rest) ∧
    ((∃ violation ∈ root.validate rules, violation.location.address = stop.address ∧
        violation.problem = .invalidWeightUsage) ↔
      node.contains "weight" ∧ (stop = root.start ∨
        ∃ outer above, root.start.LeadsTo outer ∧ outer.entry = .node above ∧
          stop ∈ outer.next ∧ ¬ above.Directs)) ∧
    (∀ violation,
      violation ∈ (root.validate rules).filter (·.problem.isNestingTooDeep) ↔
        ∃ deep below, root.start.LeadsTo deep ∧ deep.entry = .node below ∧
          rules.limits.maxNodeDepth < deep.depth ∧ violation = deep.tooDeep rules) ∧
    (((root.validate rules).filter (·.problem.isNestingTooDeep)).map
      (·.location.address.steps)).Nodup := by
  refine ⟨?block, ?paths, ?weight, ?nesting, ?once⟩
  case block =>
    obtain ⟨before, after, hsplit, hinside, houtside⟩ := Stop.validate_split hstop
    have hwalk : stop.walk rules =
        (Walk.visit rules stop.address stop.parent stop.depth #[] node).toList := by
      rw [Stop.walk, hnode, Walk.ofEntry]
    exact ⟨before, stop.walk rules, after, hsplit, hwalk, hinside, houtside,
      Stop.filter_walk_under rules hnode⟩
  case paths =>
    intro violation hviolation
    exact violation.path_under hviolation stop.steps
  case weight => exact Stop.exists_weight_validate_iff hstop hnode
  case nesting => exact fun violation => Stop.mem_filter_nesting_iff
  case once =>
    -- The problems stand at stops of the list, which names no indices twice.
    rw [Stop.filter_validate_nesting, List.map_map]
    exact (Stop.nodup_preorder_steps root.start).sublist (List.filter_sublist.map _)

/-- A container without a direction, and in it a node with a weight. -/
def Node.looseContainer : Node :=
  ⟨[("type", .text "container"), ("children", .children [.node ⟨[("weight", .null)]⟩])]⟩

/-- The stop at the child entry of the container. -/
def Stop.inLooseContainer : Stop :=
  Node.looseContainer.start.childOf Node.looseContainer 0 (.node ⟨[("weight", .null)]⟩)

/-- The weight in a container without a direction is a problem. -/
theorem Node.weight_in_looseContainer :
    Node.looseContainer.start.LeadsTo Stop.inLooseContainer ∧
      Stop.inLooseContainer.entry = .node ⟨[("weight", .null)]⟩ ∧
      ∃ violation ∈ Node.looseContainer.validate .builtin,
        violation.location.address = ⟨"root", [0]⟩ ∧ violation.problem = .invalidWeightUsage := by
  have hnext : Stop.inLooseContainer ∈ Node.looseContainer.start.next := List.mem_cons_self ..
  have hstop : Node.looseContainer.start.LeadsTo Stop.inLooseContainer := .single hnext
  have hdirects : ¬ Node.looseContainer.Directs := by
    intro h
    exact absurd h.direction (by decide)
  obtain ⟨-, -, hweight, -, -⟩ := Node.validate_subtree .builtin hstop rfl
  exact ⟨hstop, rfl, hweight.2 ⟨rfl, .inr ⟨_, _, .refl, rfl, hnext, hdirects⟩⟩⟩

end PanelLayout
