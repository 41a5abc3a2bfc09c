import PanelLayout.Proofs.Grammar.Values
import PanelLayout.Proofs.Insertion
import PanelLayout.Proofs.Walk.Preorder

/-!
# A layout is valid exactly if it keeps the grammar

The seven checks of a node find nothing exactly if the node is well formed where it stands, once
none of its child entries is malformed.  The walk brings every node of the layout before the
checks, and it finds every malformed entry; so a layout without violations is one whose nodes are
all well formed.
-/

namespace PanelLayout

/-! ## §1 What a node says of its kind -/

/-- The name of a kind names that kind, and no other text does. -/
theorem NodeKind.ofName?_eq_some_iff {name : String} {kind : NodeKind} :
    NodeKind.ofName? name = some kind ↔ name = kind.name := by
  constructor
  · intro h
    unfold NodeKind.ofName? at h
    split at h <;> cases h <;> rfl
  · rintro rfl
    cases kind <;> rfl

theorem NodeKind.coordinates_eq (kind : NodeKind) :
    kind.coordinates = if kind = .line then ["start", "end"] else ["position"] := by
  cases kind <;> rfl

theorem NodeKind.allowsAbsolute_iff {kind : NodeKind} :
    kind.allowsAbsolute = true ↔ kind ≠ .container := by
  cases kind <;> decide

namespace Node

theorem kindTag_eq_known_iff {node : Node} {kind : NodeKind} :
    node.kindTag = .known kind ↔ node.get? "type" = some (.text kind.name) := by
  unfold kindTag
  cases hget : node.get? "type" with
  | none => simp
  | some value =>
    cases value with
    | text name =>
      simp only [Option.some.injEq, AttrValue.text.injEq, ← NodeKind.ofName?_eq_some_iff]
      cases NodeKind.ofName? name <;> simp
    | _ => simp

theorem isAbsolute_iff {node : Node} : node.isAbsolute = true ↔ node.SaysAbsolute := by
  unfold isAbsolute SaysAbsolute
  split
  · rename_i b hget
    simp [hget]
  · rename_i hother
    constructor
    · intro h
      simp at h
    · intro hget
      exact absurd hget (hother true)

theorem distributesByWeight_iff {node : Node} :
    Findings.distributesByWeight node = true ↔ node.Directs := by
  unfold Findings.distributesByWeight
  rw [Bool.and_eq_true, decide_eq_true_iff, kindTag_eq_known_iff]
  exact ⟨fun h => ⟨h.1, h.2⟩, fun h => ⟨h.1, h.2⟩⟩

end Node

/-! ## §2 The checks of one node -/

namespace Findings

variable {rules : RuleSet} {node : Node}

/-- Kind and vocabulary are accepted if the node is of a kind, has all attributes that the kind
requires and none that it forbids. -/
theorem ofKind_ofVocabulary_eq_nil_iff {tag : KindTag} :
    ofKind tag = [] ∧ ofVocabulary tag node = [] ↔
      ∃ kind, tag = .known kind ∧ (∀ name ∈ kind.required, node.contains name) ∧
        ∀ name ∈ kind.forbidden, ¬ node.contains name := by
  cases tag with
  | missing => simp [ofVocabulary]
  | unknown text => simp [ofKind]
  | known kind =>
    have hmissing : ofMissing kind node = [] ↔ ∀ name ∈ kind.required, node.contains name := by
      simp [ofMissing, List.filter_eq_nil_iff]
    have hforbidden : ofForbidden kind node = [] ↔
        ∀ name ∈ kind.forbidden, ¬ node.contains name := by
      simp only [ofForbidden, List.map_eq_nil_iff, List.filter_eq_nil_iff, decide_eq_true_iff,
        Node.contains_iff_mem_names]
      exact ⟨fun h name hk hn => h name hn hk, fun h name hn hk => h name hk hn⟩
    simp [ofKind, ofVocabulary, hmissing, hforbidden]

theorem ofLengths_eq_nil_iff :
    ofLengths rules node = [] ↔
      ∀ field max, (field, max) ∈ rules.maxLengths →
        ∀ value, node.get? field = some value → value.render.length ≤ max := by
  have hfield : ∀ field max, ofLength node field max = [] ↔
      ∀ value, node.get? field = some value → value.render.length ≤ max := by
    intro field max
    unfold ofLength
    cases node.get? field <;> simp
  simp [ofLengths, List.flatMap_eq_nil_iff, hfield]

theorem ofCoordinates_known_eq_nil_iff {kind : NodeKind} :
    ofCoordinates rules (.known kind) node = [] ↔
      ∀ name ∈ if kind = .line then ["start", "end"] else ["position"],
        ∀ value, node.get? name = some value → value.IsCoordinate rules node.SaysAbsolute := by
  rw [← NodeKind.coordinates_eq]
  simp only [ofCoordinates, KindTag.kind?, List.flatMap_eq_nil_iff]
  refine forall₂_congr fun name _ => ?_
  cases node.get? name with
  | none => simp
  | some value => simp [ofCoordinate_eq_nil_iff, Node.isAbsolute_iff]

theorem ofConstraints_eq_nil_iff :
    ofConstraints rules node = [] ↔
      ∀ name constraint, Constraint.of? name = some constraint →
        ∀ value, node.get? name = some value → constraint.Admits rules value := by
  simp only [ofConstraints, List.flatMap_eq_nil_iff, Prod.forall, Constraint.of?_eq_some_iff]
  refine forall₃_congr fun name constraint hmem => ?_
  cases node.get? name with
  | none => simp
  | some value =>
    simp [ofConstraint_eq_nil_iff (Constraint.hasSmallBounds_of_mem_table hmem)]

theorem ofPlacement_known_eq_nil_iff {kind : NodeKind} :
    ofPlacement (.known kind) node = [] ↔
      (node.contains "is_absolute" → kind ≠ .container) := by
  simp [ofPlacement, KindTag.kind?, NodeKind.allowsAbsolute_iff]

theorem ofWeight_eq_nil_iff {parent : Option Node} :
    ofWeight parent node = [] ↔
      (node.contains "weight" → ∃ above, parent = some above ∧ above.Directs) := by
  have hparent : parent.any distributesByWeight = true ↔
      ∃ above, parent = some above ∧ above.Directs := by
    cases parent <;> simp [Node.distributesByWeight_iff]
  simp only [ofWeight, ite_eq_right_iff, Bool.and_eq_true, Bool.not_eq_true', List.cons_ne_nil,
    imp_false, not_and, Bool.not_eq_false, hparent]

theorem ofExpressions_eq_nil_iff :
    ofExpressions rules node = [] ↔
      ∀ field ∈ expressionFields, ∀ value, node.get? field = some value →
        Expression.WellFormed rules field value.render := by
  simp only [ofExpressions, List.flatMap_eq_nil_iff]
  refine forall₂_congr fun field _ => ?_
  cases node.get? field with
  | none => simp
  | some value => simp [ofExpression_eq_nil_iff]

theorem ofDepth_eq_nil_iff {depth : Nat} :
    ofDepth rules depth = [] ↔ depth ≤ rules.limits.maxNodeDepth := by
  simp [ofDepth]

/-- `children` are accepted if they are well formed, malformed entries aside. -/
theorem ofChildren_eq_nil_iff (h : Child.malformed ∉ node.entries) :
    ofChildren rules node = [] ↔
      ∀ value, node.get? "children" = some value → Node.ChildrenWellFormed rules value := by
  unfold ofChildren
  cases hget : node.get? "children" with
  | none => simp
  | some value =>
    cases value with
    | children entries =>
      have hmem : Child.malformed ∉ entries := fun hm => h (Node.mem_entries_iff.2 ⟨_, hget, hm⟩)
      simp [Node.ChildrenWellFormed, hmem]
    | _ => simp [Node.ChildrenWellFormed]

end Findings

/-! ## §3 One node -/

/-- Where no child entry is malformed, the checks of a node find nothing exactly if the node is
well formed. -/
theorem Node.findings_eq_nil_iff {rules : RuleSet} {parent : Option Node} {depth : Nat}
    {node : Node} (h : Child.malformed ∉ node.entries) :
    node.findings rules parent depth = [] ↔ node.WellFormed rules parent depth := by
  simp only [Node.findings, Findings.ofValues, Findings.ofNesting, List.append_eq_nil_iff]
  constructor
  · rintro ⟨⟨⟨⟨⟨⟨hkind, hlengths⟩, hvocabulary⟩, ⟨hcoordinates, hconstraints⟩, hplacement⟩,
      hweight⟩, hexpressions⟩, hdepth, hchildren⟩
    -- The kind must be known before the coordinates and the placement say anything.
    obtain ⟨kind, htag, hrequired, hforbidden⟩ :=
      Findings.ofKind_ofVocabulary_eq_nil_iff.1 ⟨hkind, hvocabulary⟩
    rw [htag] at hcoordinates hplacement
    exact ⟨kind, {
      type := Node.kindTag_eq_known_iff.1 htag
      required := hrequired
      forbidden := hforbidden
      lengths := Findings.ofLengths_eq_nil_iff.1 hlengths
      coordinates := Findings.ofCoordinates_known_eq_nil_iff.1 hcoordinates
      constraints := Findings.ofConstraints_eq_nil_iff.1 hconstraints
      placement := Findings.ofPlacement_known_eq_nil_iff.1 hplacement
      weight := Findings.ofWeight_eq_nil_iff.1 hweight
      expressions := Findings.ofExpressions_eq_nil_iff.1 hexpressions
      depth := Findings.ofDepth_eq_nil_iff.1 hdepth
      children := (Findings.ofChildren_eq_nil_iff h).1 hchildren }⟩
  · rintro ⟨kind, hnode⟩
    have htag : node.kindTag = .known kind := Node.kindTag_eq_known_iff.2 hnode.type
    obtain ⟨hkind, hvocabulary⟩ := Findings.ofKind_ofVocabulary_eq_nil_iff.2
      ⟨kind, htag, hnode.required, hnode.forbidden⟩
    refine ⟨⟨⟨⟨⟨⟨hkind, ?lengths⟩, hvocabulary⟩, ⟨?coordinates, ?constraints⟩, ?placement⟩,
      ?weight⟩, ?expressions⟩, ?depth, ?children⟩
    case lengths => exact Findings.ofLengths_eq_nil_iff.2 hnode.lengths
    case coordinates =>
      rw [htag]
      exact Findings.ofCoordinates_known_eq_nil_iff.2 hnode.coordinates
    case constraints => exact Findings.ofConstraints_eq_nil_iff.2 hnode.constraints
    case placement =>
      rw [htag]
      exact Findings.ofPlacement_known_eq_nil_iff.2 hnode.placement
    case weight => exact Findings.ofWeight_eq_nil_iff.2 hnode.weight
    case expressions => exact Findings.ofExpressions_eq_nil_iff.2 hnode.expressions
    case depth => exact Findings.ofDepth_eq_nil_iff.2 hnode.depth
    case children => exact (Findings.ofChildren_eq_nil_iff h).2 hnode.children

theorem Node.malformed_notMem_entries {rules : RuleSet} {parent : Option Node} {depth : Nat}
    {node : Node} (h : node.WellFormed rules parent depth) : Child.malformed ∉ node.entries := by
  obtain ⟨kind, hnode⟩ := h
  intro hmem
  obtain ⟨entries, hget, hmem⟩ := Node.mem_entries_iff.1 hmem
  rcases hnode.children _ hget with hnull | ⟨_, heq, -, hnone⟩
  · cases hnull
  · cases heq
    exact hnone hmem

/-! ## §4 The whole layout -/

/-- Where nothing is found from a stop on, its node is well formed. -/
theorem Stop.wellFormed_of_walk_eq_nil {rules : RuleSet} {stop : Stop} {node : Node}
    (hvalid : stop.walk rules = []) (hnode : stop.entry = .node node) :
    node.WellFormed rules stop.parent stop.depth := by
  obtain ⟨hfound, hbelow⟩ := (walk_eq_nil_iff hnode).1 hvalid
  have hentries : Child.malformed ∉ node.entries := by
    intro hmem
    obtain ⟨index, hget⟩ := List.getElem?_of_mem hmem
    -- The walk stops at a malformed entry and finds it.
    have hwalk := hbelow index _ hget
    rw [walk_childOf_malformed] at hwalk
    cases hwalk
  exact (Node.findings_eq_nil_iff hentries).1 hfound

/-- A layout has no violations if nothing is found at any stop of the walk. -/
theorem Node.validate_eq_nil_iff_stops {rules : RuleSet} {root : Node} :
    root.validate rules = [] ↔
      ∀ stop, root.start.LeadsTo stop → stop.violations rules = [] := by
  simp only [Node.validate_eq_flatMap, List.flatMap_eq_nil_iff, Stop.mem_preorder_iff]

/-- **Validity is the grammar.**  A layout has no violations exactly if every node that the walk
comes to is well formed below its parent and at its depth, which is one more than the number of
indices that lead to it. -/
theorem Node.validate_eq_nil_iff_wellFormed (rules : RuleSet) (root : Node) :
    root.validate rules = [] ↔
      ∀ steps parent node, root.start.LeadsTo ⟨steps, parent, .node node⟩ →
        node.WellFormed rules parent (steps.length + 1) := by
  rw [Node.validate_eq_nil_iff_stops]
  constructor
  · -- Nothing is found, so no entry is malformed and the checks of the node are decisive.
    intro h steps parent node hnode
    have hentries : Child.malformed ∉ node.entries := by
      intro hmem
      obtain ⟨index, hget⟩ := List.getElem?_of_mem hmem
      have hnext := Stop.mem_next_iff.2
        ⟨node, index, .malformed, (rfl : Stop.entry ⟨steps, parent, .node node⟩ = _), hget, rfl⟩
      exact absurd (h _ (hnode.tail hnext)) (by simp [Stop.violations, Stop.childOf])
    have hfound := h _ hnode
    rw [Stop.violations_of_node rfl, Node.violationsAt, List.map_eq_nil_iff] at hfound
    exact (Node.findings_eq_nil_iff hentries).1 hfound
  · -- All nodes are well formed, so nothing is found at a node.
    intro h stop hstop
    cases hentry : stop.entry with
    | node node =>
      have hnode : node.WellFormed rules stop.parent stop.depth :=
        h stop.steps stop.parent node (by rw [← hentry]; exact hstop)
      rw [Stop.violations_of_node hentry, Node.violationsAt, List.map_eq_nil_iff]
      exact (Node.findings_eq_nil_iff (Node.malformed_notMem_entries hnode)).2 hnode
    | malformed =>
      -- A malformed entry is an entry of a node on the walk, which then is not well formed.
      rcases Relation.ReflTransGen.cases_tail hstop with rfl | ⟨above, habove, hnext⟩
      · cases hentry
      · obtain ⟨node, index, entry, habs, hget, rfl⟩ := Stop.mem_next_iff.1 hnext
        have hnode : node.WellFormed rules above.parent above.depth :=
          h above.steps above.parent node (by rw [← habs]; exact habove)
        cases hentry
        exact absurd (List.mem_of_getElem? hget) (Node.malformed_notMem_entries hnode)

end PanelLayout
