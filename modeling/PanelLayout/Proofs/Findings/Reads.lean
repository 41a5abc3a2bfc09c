import PanelLayout.Proofs.Findings.Aspects

/-!
# What the checks of a node read

A check reads some attributes of a node and does not see the others.  Two nodes on which these
attributes have the same values are told the same.

* `Aspect.reads` lists the attributes by aspect, and `Node.findingsOn_congr` compares what is found
  on one aspect of two nodes.
* `Node.findings_congr` puts the aspects together for nodes that differ in their `children` only; of
  these the checks see how many there are.
-/

namespace PanelLayout

/-- Two nodes whose attributes have the same values, those of one name aside. -/
def Node.AgreeExcept (name : String) (a b : Node) : Prop :=
  ∀ other, other ≠ name → a.get? other = b.get? other

namespace Node

variable {a b : Node} {name : String}

theorem contains_congr (h : a.get? name = b.get? name) : a.contains name = b.contains name := by
  rw [contains, contains, h]

theorem kindTag_congr (h : a.get? "type" = b.get? "type") : a.kindTag = b.kindTag := by
  rw [kindTag, kindTag, h]

theorem isAbsolute_congr (h : a.get? "is_absolute" = b.get? "is_absolute") :
    a.isAbsolute = b.isAbsolute := by
  rw [isAbsolute, isAbsolute, h]

/-- Whether a node distributes by weight is told by two attributes. -/
theorem distributesByWeight_congr (htype : a.get? "type" = b.get? "type")
    (hdirection : a.get? "direction" = b.get? "direction") :
    Findings.distributesByWeight a = Findings.distributesByWeight b := by
  rw [Findings.distributesByWeight, Findings.distributesByWeight, kindTag_congr htype,
    contains_congr hdirection]

end Node

namespace Findings

variable {rules : RuleSet} {a b : Node}

/-! ## §1 One check -/

/-- The lengths are those of the rendered values. -/
theorem ofLengths_congr
    (h : ∀ field, (a.get? field).map AttrValue.render = (b.get? field).map AttrValue.render) :
    ofLengths rules a = ofLengths rules b := by
  refine List.flatMap_congr fun ⟨field, max⟩ _ => ?_
  have hfield := h field
  dsimp only [ofLength]
  cases ha : a.get? field with
  | none =>
    rw [ha, Option.map_none] at hfield
    rw [Option.map_eq_none_iff.1 hfield.symm]
  | some value =>
    rw [ha, Option.map_some] at hfield
    obtain ⟨value', hb, hrender⟩ := Option.map_eq_some_iff.1 hfield.symm
    rw [hb]
    dsimp only
    rw [hrender]

theorem ofCoordinates_congr {tag : KindTag} (habsolute : a.isAbsolute = b.isAbsolute)
    (h : ∀ kind : NodeKind, ∀ name ∈ kind.coordinates, a.get? name = b.get? name) :
    ofCoordinates rules tag a = ofCoordinates rules tag b := by
  unfold ofCoordinates
  cases tag.kind? with
  | none => rfl
  | some kind =>
    refine List.flatMap_congr fun name hname => ?_
    rw [h kind name hname, habsolute]

theorem ofConstraints_congr
    (h : ∀ name ∈ Constraint.table.map (·.1), a.get? name = b.get? name) :
    ofConstraints rules a = ofConstraints rules b := by
  refine List.flatMap_congr fun ⟨name, constraint⟩ hmem => ?_
  dsimp only
  rw [h name (List.mem_map.2 ⟨_, hmem, rfl⟩)]

theorem ofPlacement_congr {tag : KindTag} (h : a.get? "is_absolute" = b.get? "is_absolute") :
    ofPlacement tag a = ofPlacement tag b := by
  unfold ofPlacement
  rw [Node.contains_congr h]

theorem ofWeight_congr {parent : Option Node} (h : a.get? "weight" = b.get? "weight") :
    ofWeight parent a = ofWeight parent b := by
  unfold ofWeight
  rw [Node.contains_congr h]

/-- Of the parent the check of the weight sees whether it distributes by weight. -/
theorem ofWeight_congr_parent {parent parent' : Option Node}
    (h : parent.any distributesByWeight = parent'.any distributesByWeight) :
    ofWeight parent a = ofWeight parent' a := by
  rw [ofWeight, ofWeight, h]

theorem ofExpressions_congr (h : ∀ field ∈ expressionFields, a.get? field = b.get? field) :
    ofExpressions rules a = ofExpressions rules b := by
  refine List.flatMap_congr fun field hfield => ?_
  rw [h field hfield]

end Findings

/-! ## §2 One aspect -/

/-- The attributes whose values decide what is found on an aspect.  The forbidden attributes are
told by all the names of a node, and are not among the aspects that this is about. -/
def Aspect.reads (rules : RuleSet) : Aspect → List String
  | .kind => ["type"]
  | .lengths => NamedList.names rules.maxLengths
  | .required => "type" :: NodeKind.all.flatMap NodeKind.required
  | .coordinates => "type" :: "is_absolute" :: NodeKind.all.flatMap NodeKind.coordinates
  | .constraints => NamedList.names Constraint.table
  | .placement => ["type", "is_absolute"]
  | .weight => ["weight"]
  | .expressions => Findings.expressionFields
  | .children => ["children"]
  | .forbidden | .depth => []

/-- Only the lengths are those of the rules. -/
theorem Aspect.reads_eq_builtin {aspect : Aspect} (h : aspect ≠ .lengths) (rules : RuleSet) :
    aspect.reads rules = aspect.reads .builtin := by
  cases aspect <;> first | rfl | exact absurd rfl h

/-- `children` stands in none of the tables. -/
theorem Aspect.children_notMem_reads {rules : RuleSet} {aspect : Aspect} (hlengths : aspect ≠ .lengths)
    (hchildren : aspect ≠ .children) : "children" ∉ aspect.reads rules := by
  rw [reads_eq_builtin hlengths]
  revert hlengths hchildren
  cases aspect <;> decide

/-- On nodes whose attributes that an aspect reads have the same values the same is found. -/
theorem Node.findingsOn_congr {rules : RuleSet} {parent : Option Node} {depth : Nat} {a b : Node}
    {aspect : Aspect} (haspect : aspect ≠ .forbidden)
    (h : ∀ name ∈ aspect.reads rules, a.get? name = b.get? name) :
    a.findingsOn rules parent depth aspect = b.findingsOn rules parent depth aspect := by
  have hall : ∀ kind : NodeKind, kind ∈ NodeKind.all := by
    intro kind
    cases kind <;> decide
  cases aspect with
  | forbidden => exact absurd rfl haspect
  | kind => rw [findingsOn, findingsOn, kindTag_congr (h "type" (List.mem_cons_self ..))]
  | lengths =>
    rw [findingsOn, findingsOn, Findings.ofLengths_eq_onAttributes,
      Findings.ofLengths_eq_onAttributes]
    exact Findings.onAttributes_congr fun limit hlimit =>
      .inl ⟨h limit.1 (List.mem_map_of_mem hlimit), rfl⟩
  | required =>
    rw [findingsOn, findingsOn, kindTag_congr (h "type" (List.mem_cons_self ..))]
    refine Findings.ofRequired_congr fun kind name hname => contains_congr (h name ?_)
    exact List.mem_cons_of_mem _ (List.mem_flatMap.2 ⟨kind, hall kind, hname⟩)
  | coordinates =>
    rw [findingsOn, findingsOn, kindTag_congr (h "type" (List.mem_cons_self ..))]
    refine Findings.ofCoordinates_congr (isAbsolute_congr (h _ ?_)) fun kind name hname => h name ?_
    · exact List.mem_cons_of_mem _ (List.mem_cons_self ..)
    · exact List.mem_cons_of_mem _ (List.mem_cons_of_mem _
        (List.mem_flatMap.2 ⟨kind, hall kind, hname⟩))
  | constraints => exact Findings.ofConstraints_congr h
  | placement =>
    rw [findingsOn, findingsOn, kindTag_congr (h "type" (List.mem_cons_self ..))]
    exact Findings.ofPlacement_congr (h _ (List.mem_cons_of_mem _ (List.mem_cons_self ..)))
  | weight => exact Findings.ofWeight_congr (h _ (List.mem_cons_self ..))
  | expressions => exact Findings.ofExpressions_congr h
  | depth => rfl
  | children =>
    rw [findingsOn, findingsOn]
    unfold Findings.ofChildren
    rw [h _ (List.mem_cons_self ..)]

/-! ## §3 Nodes that differ in their children -/

namespace Node

variable {rules : RuleSet} {parent parent' : Option Node} {depth : Nat} {a b : Node}

theorem AgreeExcept.distributesByWeight_eq (h : a.AgreeExcept "children" b) :
    Findings.distributesByWeight a = Findings.distributesByWeight b :=
  distributesByWeight_congr (h _ (by decide)) (h _ (by decide))

/-- Nodes that differ in their `children` only are told the same but for what the last check says
of the children, as far as the lengths and the forbidden names are the same. -/
theorem findings_congr_aside (parent : Option Node) (depth : Nat)
    (h : a.AgreeExcept "children" b)
    (hlengths : Findings.ofLengths rules a = Findings.ofLengths rules b)
    (hforbidden : ∀ kind, Findings.ofForbidden kind a = Findings.ofForbidden kind b) :
    ∃ others, a.findings rules parent depth = others ++ Findings.ofChildren rules a ∧
      b.findings rules parent depth = others ++ Findings.ofChildren rules b := by
  have hsplit : ∀ node : Node, node.findings rules parent depth =
      (Aspect.all.dropLast.flatMap (node.findingsOn rules parent depth)) ++
        Findings.ofChildren rules node := by
    intro node
    rw [findings_eq_flatMap_aspects]
    simp [Aspect.all, findingsOn]
  refine ⟨_, hsplit a, (hsplit b).trans (congrArg (· ++ _) (List.flatMap_congr ?_))⟩
  intro aspect haspect
  cases aspect with
  | lengths => exact hlengths.symm
  | forbidden =>
    rw [findingsOn, findingsOn, kindTag_congr (h "type" (by decide))]
    cases b.kindTag with
    | known kind => exact (hforbidden kind).symm
    | _ => rfl
  | children => exact absurd haspect (by decide)
  | _ =>
    refine findingsOn_congr (by decide) fun name hname => (h name ?_).symm
    exact ne_of_mem_of_not_mem hname (Aspect.children_notMem_reads (by decide) (by decide))

/-- If the number of the children is the same too, they are told the same. -/
theorem findings_congr (h : a.AgreeExcept "children" b)
    (hlengths : Findings.ofLengths rules a = Findings.ofLengths rules b)
    (hforbidden : ∀ kind, Findings.ofForbidden kind a = Findings.ofForbidden kind b)
    (hchildren : Findings.ofChildren rules a = Findings.ofChildren rules b) :
    a.findings rules parent depth = b.findings rules parent depth := by
  obtain ⟨others, ha, hb⟩ := findings_congr_aside parent depth h hlengths hforbidden
  rw [ha, hb, hchildren]

/-- Of its surroundings a node's findings depend on the depth, and on whether the parent
distributes by weight. -/
theorem findings_congr_parent
    (h : parent.any Findings.distributesByWeight = parent'.any Findings.distributesByWeight) :
    a.findings rules parent depth = a.findings rules parent' depth := by
  simp only [findings, Findings.ofWeight_congr_parent h]

end Node

end PanelLayout
