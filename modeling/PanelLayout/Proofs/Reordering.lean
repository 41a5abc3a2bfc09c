import PanelLayout.Proofs.Walk.Update

/-!
# The order of attributes

A node's attributes are looked up by their names.  One check only goes through them as they stand,
the one that reports what the kind forbids; it reports in the order of the document.  Hence layouts
that differ in the order of attributes have the same violations, and these stand in the same order
but for the forbidden attributes of one node among themselves.

* `Node.Reorders` is the step from a layout to one in which a node has another order, and
  `Node.Reordered` any number of such steps.
* `Violation.Shuffles` is the step from the violations of the one to those of the other.
* `Node.shuffles_of_reorders` leads from step to step, and `Node.validate_reordered` from layouts to
  what their violations have in common.
-/

namespace PanelLayout

/-! ## §1 Layouts in another order -/

/-- One of the nodes to which the walk comes has its attributes in another order; each of them has
its own name. -/
def Node.Reorders (root root' : Node) : Prop :=
  ∃ (stop : Stop) (node node' : Node), root.start.LeadsTo stop ∧ stop.entry = .node node ∧
    (NamedList.names node.attributes).Nodup ∧ node.attributes.Perm node'.attributes ∧
      root' = modifyAt (fun _ => node') stop.steps root

/-- Any number of nodes have their attributes in another order. -/
def Node.Reordered : Node → Node → Prop := Relation.ReflTransGen Node.Reorders

/-! ## §2 One node -/

namespace Node

variable {rules : RuleSet} {parent : Option Node} {depth : Nat} {a b : Node}

theorem get?_eq_of_perm (h : (NamedList.names a.attributes).Nodup)
    (hperm : a.attributes.Perm b.attributes) (name : String) : a.get? name = b.get? name :=
  NamedList.lookup_eq_of_perm h hperm name

/-- What is forbidden is reported for each attribute, in the order of the attributes. -/
theorem perm_findingsOn_forbidden (hkind : a.kindTag = b.kindTag)
    (hperm : a.attributes.Perm b.attributes) :
    (a.findingsOn rules parent depth .forbidden).Perm
      (b.findingsOn rules parent depth .forbidden) := by
  have hnames : (NamedList.names a.attributes).Perm (NamedList.names b.attributes) := hperm.map _
  rw [findingsOn, findingsOn, hkind]
  cases b.kindTag with
  | known kind => exact (hnames.filter _).map _
  | _ => exact .refl _

/-- The forbidden attributes are reported in one block. -/
theorem findings_eq_block (rules : RuleSet) (parent : Option Node) (depth : Nat) (node : Node) :
    node.findings rules parent depth =
      [Aspect.kind, .lengths, .required].flatMap (node.findingsOn rules parent depth) ++
        node.findingsOn rules parent depth .forbidden ++
        [Aspect.coordinates, .constraints, .placement, .weight, .expressions, .depth,
          .children].flatMap (node.findingsOn rules parent depth) := by
  rw [findings_eq_flatMap_aspects, Aspect.all]
  simp only [List.flatMap_cons, List.append_assoc, List.flatMap_nil, List.nil_append]

/-- A node in another order is told the same, but for that block. -/
theorem findings_of_perm (rules : RuleSet) (parent : Option Node) (depth : Nat)
    (h : (NamedList.names a.attributes).Nodup) (hperm : a.attributes.Perm b.attributes) :
    ∃ before after,
      a.findings rules parent depth =
        before ++ a.findingsOn rules parent depth .forbidden ++ after ∧
      b.findings rules parent depth =
        before ++ b.findingsOn rules parent depth .forbidden ++ after := by
  have hother : ∀ aspects : List Aspect, Aspect.forbidden ∉ aspects →
      aspects.flatMap (b.findingsOn rules parent depth) =
        aspects.flatMap (a.findingsOn rules parent depth) := fun aspects hmem =>
    List.flatMap_congr fun aspect haspect =>
      (findingsOn_congr (ne_of_mem_of_not_mem haspect hmem) fun name _ =>
        get?_eq_of_perm h hperm name).symm
  refine ⟨_, _, findings_eq_block rules parent depth a, ?_⟩
  rw [findings_eq_block rules parent depth b, hother _ (by decide), hother _ (by decide)]

end Node

/-! ## §3 Violations in another order -/

/-- An attribute is there that the kind of its node forbids. -/
def Problem.isForbiddenAttribute : Problem → Bool
  | .forbiddenAttributePresent .. => true
  | _ => false

theorem Finding.isForbiddenAttribute_iff {finding : Finding} :
    finding.problem.isForbiddenAttribute ↔ finding.aspect? = some .forbidden := by
  have hplace : ∀ place : Place, place.aspect ≠ .forbidden := by
    intro place
    unfold Place.aspect
    split
    · split
      · decide
      · split <;> decide
    · decide
  obtain ⟨place, problem⟩ := finding
  cases problem <;> simp [Problem.isForbiddenAttribute, aspect?, hplace]

namespace Violation

/-- The violation is a forbidden attribute of the node at that address. -/
def isForbiddenAt (address : Address) (violation : Violation) : Bool :=
  violation.problem.isForbiddenAttribute && violation.location.address = address

/-- Forbidden attributes of one node, which stand one behind the other, come in another order. -/
def Shuffles (list list' : List Violation) : Prop :=
  ∃ address before block block' after,
    list = before ++ block ++ after ∧ list' = before ++ block' ++ after ∧ block.Perm block' ∧
      ∀ violation ∈ block, violation.isForbiddenAt address

/-- Any number of nodes have their forbidden attributes reported in another order. -/
def Shuffled : List Violation → List Violation → Prop := Relation.ReflTransGen Shuffles

variable {list list' : List Violation}

theorem Shuffles.perm (h : Shuffles list list') : list.Perm list' := by
  obtain ⟨address, before, block, block', after, rfl, rfl, hblock, -⟩ := h
  exact (hblock.append_left before).append_right after

theorem Shuffles.filter_others (h : Shuffles list list') :
    list.filter (!·.problem.isForbiddenAttribute) =
      list'.filter (!·.problem.isForbiddenAttribute) := by
  obtain ⟨address, before, block, block', after, rfl, rfl, hblock, hforbidden⟩ := h
  have hnil : block.filter (!·.problem.isForbiddenAttribute) = [] := by
    rw [List.filter_eq_nil_iff]
    intro violation hviolation
    have hat := hforbidden violation hviolation
    rw [isForbiddenAt, Bool.and_eq_true] at hat
    simp [hat.1]
  have hnil' : block'.filter (!·.problem.isForbiddenAttribute) = [] :=
    List.perm_nil.1 (hnil ▸ (hblock.filter _).symm)
  simp only [List.filter_append, hnil, hnil']

/-- One forbidden attribute alone has no other order. -/
theorem Shuffles.eq (h : Shuffles list list')
    (hone : ∀ address, (list.filter (isForbiddenAt address)).length ≤ 1) : list = list' := by
  obtain ⟨address, before, block, block', after, rfl, rfl, hblock, hforbidden⟩ := h
  have hlength : block.length ≤ 1 := by
    have hone := hone address
    rw [List.filter_append, List.filter_append, List.filter_eq_self.2 hforbidden] at hone
    simp only [List.length_append] at hone
    omega
  have heq : block = block' := by
    cases block with
    | nil => exact (List.nil_perm.1 hblock).symm
    | cons violation rest =>
      have hrest : rest = [] := by
        rw [← List.length_eq_zero_iff]
        simp only [List.length_cons] at hlength
        omega
      subst hrest
      exact (List.perm_singleton.1 hblock.symm).symm
  rw [heq]

theorem Shuffled.perm (h : Shuffled list list') : list.Perm list' := by
  induction h with
  | refl => exact .refl _
  | tail _ hstep ih => exact ih.trans hstep.perm

theorem Shuffled.filter_others (h : Shuffled list list') :
    list.filter (!·.problem.isForbiddenAttribute) =
      list'.filter (!·.problem.isForbiddenAttribute) := by
  induction h with
  | refl => rfl
  | tail _ hstep ih => exact ih.trans hstep.filter_others

theorem Shuffled.eq (h : Shuffled list list')
    (hone : ∀ address, (list.filter (isForbiddenAt address)).length ≤ 1) : list = list' := by
  -- As long as nothing has changed, there is one forbidden attribute at most at each address.
  induction h with
  | refl => rfl
  | tail _ hstep ih =>
    rw [ih] at hone ⊢
    exact hstep.eq hone

end Violation

/-! ## §4 The layout -/

/-- A step from layout to layout is a step from violations to violations. -/
theorem Node.shuffles_of_reorders (rules : RuleSet) {root root' : Node} (h : root.Reorders root') :
    Violation.Shuffles (root.validate rules) (root'.validate rules) := by
  obtain ⟨stop, node, node', hstop, hnode, hnames, hperm, rfl⟩ := h
  have hget : ∀ name, node.get? name = node'.get? name := get?_eq_of_perm hnames hperm
  have hkind : node.kindTag = node'.kindTag := kindTag_congr (hget "type")
  have hentries : node'.entries = node.entries := by
    rw [entries, entries, children?, children?, hget]
  obtain ⟨before, after, hwalk, hmodified⟩ := validate_modifyAt_of_entries rules hstop hnode
  obtain ⟨left, right, hfound, hfound'⟩ := findings_of_perm rules stop.parent stop.depth hnames hperm
  refine ⟨stop.address, before ++ left.map (Finding.locate stop.address),
    (node.findingsOn rules stop.parent stop.depth .forbidden).map (Finding.locate stop.address),
    (node'.findingsOn rules stop.parent stop.depth .forbidden).map (Finding.locate stop.address),
    right.map (Finding.locate stop.address) ++ after, ?_, ?_,
    (perm_findingsOn_forbidden hkind hperm).map _, ?_⟩
  · rw [hwalk, violationsAt, hfound]
    simp only [List.map_append, List.append_assoc]
  · rw [hmodified (fun _ => node') hentries
      (distributesByWeight_congr (hget _) (hget _)).symm, violationsAt, hfound']
    simp only [List.map_append, List.append_assoc]
  · intro violation hviolation
    obtain ⟨finding, hfinding, rfl⟩ := List.mem_map.1 hviolation
    have hproblem := Finding.isForbiddenAttribute_iff.2 (aspect?_of_mem_findingsOn hfinding)
    simp [Violation.isForbiddenAt, Finding.locate, hproblem]

/-- The forbidden attributes of one node, picked out of all violations of a layout. -/
theorem Node.filter_isForbiddenAt (rules : RuleSet) {root node : Node} {stop : Stop}
    (hstop : root.start.LeadsTo stop) (hnode : stop.entry = .node node) :
    (root.validate rules).filter (Violation.isForbiddenAt stop.address) =
      (node.findingsOn rules stop.parent stop.depth .forbidden).map
        (Finding.locate stop.address) := by
  have hsplit : (root.validate rules).filter (Violation.isForbiddenAt stop.address) =
      ((root.validate rules).filter (·.location.address = stop.address)).filter
        (·.problem.isForbiddenAttribute) := by
    rw [List.filter_filter]
    rfl
  rw [hsplit, Stop.filter_validate_address hstop, Stop.violations_of_node hnode, violationsAt,
    List.filter_map, ← filter_findings_aspect]
  refine congrArg _ (List.filter_congr fun finding _ => ?_)
  rw [Bool.eq_iff_iff, decide_eq_true_iff, ← Finding.isForbiddenAttribute_iff]
  rfl

/-- They are those attributes of the node that its kind forbids, in the order of the document. -/
theorem Node.filter_isForbiddenAt_of_known (rules : RuleSet) {root node : Node} {stop : Stop}
    {kind : NodeKind} (hstop : root.start.LeadsTo stop) (hnode : stop.entry = .node node)
    (hkind : node.kindTag = .known kind) :
    (root.validate rules).filter (Violation.isForbiddenAt stop.address) =
      ((NamedList.names node.attributes).filter (· ∈ kind.forbidden)).map fun name =>
        ⟨⟨stop.address, .node⟩, .forbiddenAttributePresent name kind.name⟩ := by
  rw [filter_isForbiddenAt rules hstop hnode, findingsOn, hkind, Findings.ofExcluded,
    Findings.ofForbidden, List.map_map]
  rfl

/-- No node of the layout has two attributes that its kind forbids. -/
def Node.ForbidsOneAtMost (root : Node) : Prop :=
  ∀ (stop : Stop) (node : Node) (kind : NodeKind), root.start.LeadsTo stop →
    stop.entry = .node node → node.kindTag = .known kind →
      ((NamedList.names node.attributes).filter (· ∈ kind.forbidden)).length ≤ 1

theorem Node.ForbidsOneAtMost.length_filter_le {rules : RuleSet} {root : Node}
    (h : root.ForbidsOneAtMost) (address : Address) :
    ((root.validate rules).filter (Violation.isForbiddenAt address)).length ≤ 1 := by
  by_cases hnil : (root.validate rules).filter (Violation.isForbiddenAt address) = []
  · rw [hnil]
    exact Nat.zero_le 1
  · -- There is one at the address, so a node stands there.
    obtain ⟨violation, hviolation⟩ := List.exists_mem_of_ne_nil _ hnil
    obtain ⟨hmem, hat⟩ := List.mem_filter.1 hviolation
    obtain ⟨stop, hstop, hfound⟩ := mem_validate_iff.1 hmem
    rw [Violation.isForbiddenAt, Bool.and_eq_true, decide_eq_true_iff,
      Stop.address_of_mem_violations hfound] at hat
    obtain ⟨hproblem, rfl⟩ := hat
    rcases Stop.finding_or_malformed_of_mem hfound with ⟨node, hnode, -⟩ | ⟨-, rfl⟩
    · cases hkind : node.kindTag with
      | known kind =>
        rw [filter_isForbiddenAt_of_known rules hstop hnode hkind, List.length_map]
        exact h stop node kind hstop hnode hkind
      | _ =>
        rw [filter_isForbiddenAt rules hstop hnode, findingsOn, hkind]
        exact Nat.zero_le 1
    · cases hproblem

/-- **The order of attributes does not matter.**  The attributes of any number of nodes of a layout
are put in another order.  The violations stay the same, and in the same order, once the forbidden
attributes are dropped.  Those are, for every node, the same ones, and stand in the order in which
the respective layout has them.  So the violations are the same altogether, up to their order, and
in the same order too if no node has two forbidden attributes. -/
theorem Node.validate_reordered (rules : RuleSet) {root root' : Node} (h : root.Reordered root') :
    (root.validate rules).filter (!·.problem.isForbiddenAttribute) =
      (root'.validate rules).filter (!·.problem.isForbiddenAttribute) ∧
    (∀ address, ((root.validate rules).filter (Violation.isForbiddenAt address)).Perm
      ((root'.validate rules).filter (Violation.isForbiddenAt address))) ∧
    (∀ layout ∈ [root, root'], ∀ (stop : Stop) (node : Node) (kind : NodeKind),
      layout.start.LeadsTo stop → stop.entry = .node node → node.kindTag = .known kind →
      (layout.validate rules).filter (Violation.isForbiddenAt stop.address) =
        ((NamedList.names node.attributes).filter (· ∈ kind.forbidden)).map fun name =>
          ⟨⟨stop.address, .node⟩, .forbiddenAttributePresent name kind.name⟩) ∧
    (root.validate rules).Perm (root'.validate rules) ∧
    (root.ForbidsOneAtMost → root.validate rules = root'.validate rules) := by
  have hshuffled : Violation.Shuffled (root.validate rules) (root'.validate rules) :=
    h.lift (validate rules) fun _ _ => shuffles_of_reorders rules
  refine ⟨hshuffled.filter_others, fun address => hshuffled.perm.filter _, ?_, hshuffled.perm, ?_⟩
  · exact fun layout _ stop node kind => filter_isForbiddenAt_of_known rules
  · exact fun hone => hshuffled.eq hone.length_filter_le

/-- A text that has two attributes of other kinds. -/
def Node.strayText : Node :=
  ⟨[("icon_id", .text "i"), ("type", .text "text"), ("start", .null), ("weight", .null)]⟩

/-- A container with that text in it, and with an attribute of a line. -/
def Node.strayFrame : Node :=
  ⟨[("id", .text "a"), ("type", .text "container"), ("end", .null),
    ("children", .children [.node strayText])]⟩

/-- The text with its attributes backwards. -/
def Node.strayTextBackwards : Node := ⟨strayText.attributes.reverse⟩

/-- Both nodes with their attributes backwards. -/
def Node.strayFrameBackwards : Node :=
  ⟨[("children", .children [.node strayTextBackwards]), ("end", .null),
    ("type", .text "container"), ("id", .text "a")]⟩

/-- The text is reordered first, and then the container around it. -/
theorem Node.reordered_strayFrame : strayFrame.Reordered strayFrameBackwards := by
  have htext : strayFrame.Reorders (modifyAt (fun _ => strayTextBackwards) [0] strayFrame) :=
    ⟨strayFrame.start.childOf strayFrame 0 (.node strayText), strayText, strayTextBackwards,
      .single (List.mem_cons_self ..), rfl, by decide, (List.reverse_perm _).symm, rfl⟩
  have hframe : (modifyAt (fun _ => strayTextBackwards) [0] strayFrame).Reorders
      strayFrameBackwards :=
    ⟨start _, _, strayFrameBackwards, .refl, rfl, by decide, (List.reverse_perm _).symm, rfl⟩
  exact (Relation.ReflTransGen.single htext).tail hframe

/-- The two forbidden attributes of the text change places, and nothing else does. -/
theorem Node.validate_strayFrame :
    strayFrame.Reordered strayFrameBackwards ∧
      (strayFrame.validate .builtin).filter (!·.problem.isForbiddenAttribute) =
        (strayFrameBackwards.validate .builtin).filter (!·.problem.isForbiddenAttribute) ∧
      (strayFrame.validate .builtin).Perm (strayFrameBackwards.validate .builtin) ∧
      ((strayFrame.validate .builtin).filter (Violation.isForbiddenAt ⟨"root", [0]⟩)).map
          Violation.message =
        ["Attribute 'icon_id' is not allowed on text node",
          "Attribute 'start' is not allowed on text node"] ∧
      ((strayFrameBackwards.validate .builtin).filter (Violation.isForbiddenAt ⟨"root", [0]⟩)).map
          Violation.message =
        ["Attribute 'start' is not allowed on text node",
          "Attribute 'icon_id' is not allowed on text node"] := by
  obtain ⟨hothers, -, -, hperm, -⟩ := validate_reordered .builtin reordered_strayFrame
  exact ⟨reordered_strayFrame, hothers, hperm, by decide +kernel, by decide +kernel⟩

end PanelLayout
