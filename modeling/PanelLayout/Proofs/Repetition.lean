import PanelLayout.Proofs.Findings.Distinct
import PanelLayout.Proofs.Places

/-!
# Nothing is reported twice

The nodes of a layout have different addresses, and the findings on one node are distinct; so no
violation is reported twice.  This needs that every node names each attribute once, and the rules
each length-limited field; under reachable rules two violations with one path have one location, so
that it makes no difference whether the path or the location is told.

The operators and the icon modules of an expression are reported once for every segment and every
reference; `Node.validate_no_repetition` says how often that is.
-/

namespace PanelLayout

/-! ## §1 Addresses -/

theorem Finding.locate_injective (address : Address) : Function.Injective (locate address) := by
  rintro ⟨place, problem⟩ ⟨place', problem'⟩ h
  cases h
  rfl

theorem Finding.aspect?_of_mayRepeat {finding : Finding} (h : finding.problem.mayRepeat) :
    finding.aspect? = some .expressions := by
  obtain ⟨place, problem⟩ := finding
  cases problem <;> first | rfl | cases h

theorem Violation.eq_of_location_eq {violation violation' : Violation}
    (hlocation : violation.location = violation'.location)
    (hproblem : violation.problem = violation'.problem) : violation = violation' := by
  cases violation
  cases hlocation
  cases hproblem
  rfl

/-- No node to which the walk comes has two attributes of one name. -/
def Node.NamesOnce (root : Node) : Prop :=
  ∀ (stop : Stop) (node : Node), root.start.LeadsTo stop → stop.entry = .node node →
    (NamedList.names node.attributes).Nodup

namespace Node

variable {rules : RuleSet} {root : Node}

theorem nodup_violations (hlengths : (NamedList.names rules.maxLengths).Nodup) {stop : Stop}
    (hnames : ∀ node, stop.entry = .node node → (NamedList.names node.attributes).Nodup) :
    ((stop.violations rules).filter (!·.problem.mayRepeat)).Nodup := by
  cases hentry : stop.entry with
  | malformed =>
    rw [Stop.violations_of_malformed hentry]
    exact (List.nodup_singleton _).filter _
  | node node =>
    rw [Stop.violations_of_node hentry, violationsAt, List.filter_map]
    exact (nodup_findings hlengths (hnames node hentry) stop.parent stop.depth).map
      (Finding.locate_injective stop.address)

/-- Nothing is found twice in a layout, apart from operators and modules. -/
theorem nodup_validate (hlengths : (NamedList.names rules.maxLengths).Nodup)
    (hnames : root.NamesOnce) :
    ((root.validate rules).filter (!·.problem.mayRepeat)).Nodup := by
  rw [validate_eq_flatMap, List.filter_flatMap]
  refine nodup_flatMap_of_key Stop.address (·.location.address)
    (Stop.nodup_preorder_address root.start) ?_ fun stop hstop => ?_
  · exact fun stop _ violation hviolation =>
      Stop.address_of_mem_violations (List.mem_of_mem_filter hviolation)
  · exact nodup_violations hlengths fun node => hnames stop node (Stop.mem_preorder_iff.1 hstop)

/-! ## §2 Expressions -/

/-- A finding on one node is reported as often as it is found. -/
theorem count_validate (rules : RuleSet) {stop : Stop} {node : Node} (hstop : root.start.LeadsTo stop)
    (hnode : stop.entry = .node node) (finding : Finding) :
    (root.validate rules).count (finding.locate stop.address) =
      (node.findings rules stop.parent stop.depth).count finding := by
  have hstops : (root.validate rules).count (finding.locate stop.address) =
      (stop.violations rules).count (finding.locate stop.address) := by
    rw [validate_eq_flatMap]
    exact count_flatMap_of_key Stop.address (fun violation => violation.location.address)
      (Stop.nodup_preorder_address root.start) (fun _ _ _ => Stop.address_of_mem_violations)
      (Stop.mem_preorder_iff.2 hstop) rfl
  rw [hstops, Stop.violations_of_node hnode, violationsAt,
    List.count_map_of_injective _ _ (Finding.locate_injective stop.address)]

/-- What may be reported again stands at an expression. -/
theorem exists_expression_of_mayRepeat {violation : Violation}
    (h : violation ∈ root.validate rules) (hrepeat : violation.problem.mayRepeat) :
    ∃ (stop : Stop) (node : Node) (field : String) (value : AttrValue),
      root.start.LeadsTo stop ∧ stop.entry = .node node ∧ field ∈ Findings.expressionFields ∧
      node.get? field = some value ∧ violation.location = ⟨stop.address, .field field⟩ := by
  obtain ⟨stop, hstop, hfound⟩ := mem_validate_iff.1 h
  rcases Stop.finding_or_malformed_of_mem hfound with
    ⟨node, hnode, finding, hfinding, rfl⟩ | ⟨-, rfl⟩
  · have haspect : finding.aspect? = some .expressions := Finding.aspect?_of_mayRepeat hrepeat
    have hexpressions : finding ∈ node.findingsOn rules stop.parent stop.depth .expressions := by
      rw [← filter_findings_aspect]
      exact List.mem_filter.2 ⟨hfinding, decide_eq_true haspect⟩
    rw [findingsOn, Findings.ofExpressions_eq_onAttributes] at hexpressions
    obtain ⟨field, hfield, value, hget, hfinding⟩ := Findings.mem_onAttributes_iff.1 hexpressions
    have hplace := (Findings.concerns_of_mem_judgeExpression hfinding).place
    exact ⟨stop, node, field, value, hstop, hnode, hfield, hget, congrArg _ hplace⟩
  · -- That an entry is malformed is said once.
    cases hrepeat

end Node

/-! ## §3 The layout -/

/-- **Nothing is reported twice.**  Under reachable rules, and in a layout whose nodes name each
attribute once, no two violations have one path and one problem, the operators and modules of
expressions aside.  These are all reported at expressions.  An operator is reported of an
expression as often as a segment with the operator stands in it, and an unknown module as often as
the expression refers to it, if it names an icon. -/
theorem Node.validate_no_repetition {rules : RuleSet} {root : Node} (hrules : rules.Reachable)
    (hnames : root.NamesOnce) :
    (((root.validate rules).filter (!·.problem.mayRepeat)).map fun violation =>
      (violation.path, violation.problem)).Nodup ∧
    (∀ violation ∈ root.validate rules, violation.problem.mayRepeat →
      ∃ (stop : Stop) (node : Node) (field : String) (value : AttrValue),
        root.start.LeadsTo stop ∧ stop.entry = .node node ∧ field ∈ Findings.expressionFields ∧
        node.get? field = some value ∧ violation.location = ⟨stop.address, .field field⟩) ∧
    ∀ (stop : Stop) (node : Node) (field : String) (value : AttrValue),
      root.start.LeadsTo stop → stop.entry = .node node → field ∈ Findings.expressionFields →
      node.get? field = some value →
      (∀ operator segment,
        (root.validate rules).count
            ⟨⟨stop.address, .field field⟩, .forbiddenOperatorInExpression operator segment⟩ =
          if operator ∈ Expression.forbiddenOperators ∧ operator ∈ segment.toList
          then (Expression.segments value.render).count segment else 0) ∧
      ∀ name allowed,
        (root.validate rules).count
            ⟨⟨stop.address, .field field⟩, .unknownIconModule name allowed⟩ =
          if field = Findings.iconField ∧ rules.isIconModule name = false ∧
            allowed = ", ".intercalate rules.iconModules
          then (IconModule.references value.render).count name else 0 := by
  have hlengths : (NamedList.names rules.maxLengths).Nodup := by
    rw [hrules.names_maxLengths]
    decide
  refine ⟨?paths, fun _ => exists_expression_of_mayRepeat,
    fun stop node field value hstop hnode hfield hget => ⟨fun operator segment => ?operators,
      fun name allowed => ?modules⟩⟩
  case paths =>
    refine List.Nodup.map_on ?_ (nodup_validate hlengths hnames)
    intro violation hviolation violation' hviolation' heq
    obtain ⟨hpath, hproblem⟩ := Prod.mk.inj heq
    obtain ⟨stop, -, hfound⟩ := mem_validate_iff.1 (List.mem_of_mem_filter hviolation)
    obtain ⟨stop', -, hfound'⟩ := mem_validate_iff.1 (List.mem_of_mem_filter hviolation')
    -- The path tells the location, since both stand at real places.
    have hlocation : violation.location = violation'.location :=
      Violation.location_eq_of_path_eq
        (Stop.standsAt_of_mem_violations hrules.hasPlainFields hfound)
        (Stop.standsAt_of_mem_violations hrules.hasPlainFields hfound') hpath
    exact Violation.eq_of_location_eq hlocation hproblem
  case operators =>
    have hcount := count_validate rules hstop hnode
      ⟨.field field, .forbiddenOperatorInExpression operator segment⟩
    exact hcount.trans ((count_findings_expression hfield hget rfl).trans
      (Findings.count_operator ..))
  case modules =>
    have hcount := count_validate rules hstop hnode
      ⟨.field field, .unknownIconModule name allowed⟩
    exact hcount.trans ((count_findings_expression hfield hget rfl).trans
      (Findings.count_module ..))

/-- A text whose content has one segment twice, and in it an operator. -/
def Node.sumText : Node :=
  ⟨[("id", .text "b"), ("type", .text "text"), ("content", .text "\x7ba+b\x7d\x7ba+b\x7d")]⟩

/-- A container with that text in it. -/
def Node.sumFrame : Node :=
  ⟨[("id", .text "a"), ("type", .text "container"), ("children", .children [.node sumText])]⟩

theorem Node.namesOnce_sumFrame : sumFrame.NamesOnce := by
  intro stop node hstop hnode
  rcases hstop.cases_head with rfl | ⟨below, hbelow, hrest⟩
  · cases hnode
    decide
  · -- There is one child, and nothing below it.
    rw [List.mem_singleton.1 hbelow] at hrest
    rcases hrest.cases_head with rfl | ⟨_, hnone, -⟩
    · cases hnode
      decide
    · exact absurd hnone List.not_mem_nil

/-- The operator is reported for both segments, and nothing else is reported twice. -/
theorem Node.validate_sumFrame :
    RuleSet.builtin.Reachable ∧ sumFrame.NamesOnce ∧
      (((sumFrame.validate .builtin).filter (!·.problem.mayRepeat)).map fun violation =>
        (violation.path, violation.problem)).Nodup ∧
      (sumFrame.validate .builtin).count ⟨⟨⟨"root", [0]⟩, .field "content"⟩,
        .forbiddenOperatorInExpression '+' "a+b"⟩ = 2 :=
  ⟨.builtin, namesOnce_sumFrame, (validate_no_repetition .builtin namesOnce_sumFrame).1,
    by decide +kernel⟩

end PanelLayout
