import PanelLayout.Proofs.Findings.Distinct
import PanelLayout.Proofs.Walk.Update

/-!
# One attribute missing, one violation

When a required attribute is taken from one node of a valid layout, the layout has the one
violation that the attribute is missing.  No other check minds: each of them judges an attribute
only if it is there.

The attribute `type` is required too, and a node without it is of no kind.  Then its children have
lost a parent that distributes by weight, and every child node with a weight has a violation of
its own.
-/

namespace PanelLayout

/-! ## §1 Erasing an attribute -/

theorem NamedList.lookup_filter_ne {α : Type} (name other : String) (entries : List (String × α)) :
    (entries.filter (·.1 ≠ name)).lookup other =
      if other = name then none else entries.lookup other := by
  induction entries with
  | nil => simp
  | cons head rest ih =>
    obtain ⟨k, v⟩ := head
    by_cases hk : k = name
    · -- The entry goes, and a name other than the erased one is not read at it.
      rw [List.filter_cons_of_neg (by simpa using hk), ih, lookup_cons_ite]
      by_cases ho : other = k
      · rw [if_pos (ho.trans hk), if_pos (ho.trans hk)]
      · rw [if_neg ho]
    · rw [List.filter_cons_of_pos (by simpa using hk), lookup_cons_ite, ih, lookup_cons_ite]
      by_cases ho : other = k
      · rw [if_pos ho, if_pos ho, if_neg (ho ▸ hk)]
      · rw [if_neg ho, if_neg ho]

namespace Node

/-- The node without an attribute. -/
def erase (name : String) (node : Node) : Node := ⟨node.attributes.filter (·.1 ≠ name)⟩

variable {node : Node} {name other : String} {value : AttrValue}

theorem get?_erase (node : Node) (name other : String) :
    (node.erase name).get? other = if other = name then none else node.get? other :=
  NamedList.lookup_filter_ne name other node.attributes

theorem get?_erase_of_ne (h : other ≠ name) : (node.erase name).get? other = node.get? other := by
  rw [get?_erase, if_neg h]

/-- What is left was there before. -/
theorem get?_of_get?_erase (h : (node.erase name).get? other = some value) :
    node.get? other = some value := by
  rw [get?_erase] at h
  split at h
  · cases h
  · exact h

theorem contains_of_contains_erase (h : (node.erase name).contains other) :
    node.contains other := by
  unfold contains at h ⊢
  obtain ⟨value, hget⟩ := Option.isSome_iff_exists.1 h
  rw [get?_of_get?_erase hget]
  rfl

theorem entries_erase (h : "children" ≠ name) : (node.erase name).entries = node.entries := by
  rw [entries, entries, children?, children?, get?_erase_of_ne h]

theorem kindTag_erase_type : (node.erase "type").kindTag = .missing := by
  rw [kindTag, get?_erase, if_pos rfl]

end Node

/-! ## §2 A well-formed node without an attribute -/

namespace Findings

variable {rules : RuleSet} {parent : Option Node} {depth : Nat} {kind : NodeKind} {node : Node}
  {name : String}

/-- The vocabulary misses the erased attribute and nothing else. -/
theorem ofVocabulary_erase (hnode : node.WellFormedAs rules parent depth kind)
    (hname : name ∈ kind.required) :
    ofVocabulary (.known kind) (node.erase name) =
      [⟨.node, .missingRequiredAttribute name kind.name⟩] := by
  have hmissing : kind.required.filter (!(node.erase name).contains ·) = [name] := by
    have hcongr : kind.required.filter (!(node.erase name).contains ·) =
        kind.required.filter (· == name) := by
      refine List.filter_congr fun other hother => ?_
      have hthere : (node.get? other).isSome := hnode.required other hother
      by_cases heq : other = name
      · simp [Node.contains, Node.get?_erase, heq]
      · simp [Node.contains, Node.get?_erase, heq, hthere]
    -- The table names every attribute once.
    rw [hcongr, List.filter_beq, List.count_eq_one_of_mem (nodup_required kind) hname]
    rfl
  have hforbidden : ofForbidden kind (node.erase name) = [] := by
    rw [ofForbidden, List.map_eq_nil_iff, List.filter_eq_nil_iff]
    intro other hother
    have hthere := Node.contains_of_contains_erase (Node.contains_iff_mem_names.2 hother)
    simpa using fun hmem => hnode.forbidden other hmem hthere
  rw [ofVocabulary, ofMissing, hmissing, hforbidden]
  rfl

end Findings

namespace Node

variable {rules : RuleSet} {parent : Option Node} {depth : Nat} {kind : NodeKind} {node : Node}
  {name : String}

/-- A well-formed node from which a required attribute was taken is told about its vocabulary
only. -/
theorem findings_erase (hnode : node.WellFormedAs rules parent depth kind)
    (hname : name ∈ kind.required) :
    (node.erase name).findings rules parent depth =
      Findings.ofVocabulary (node.erase name).kindTag (node.erase name) := by
  have hne : ∀ other, other ∉ kind.required → other ≠ name :=
    fun other hother heq => hother (heq ▸ hname)
  have hchildren : "children" ≠ name := hne _ (by cases kind <;> decide)
  have habsolute : "is_absolute" ≠ name := hne _ (by cases kind <;> decide)
  have hentries : (node.erase name).entries = node.entries := entries_erase hchildren
  have hmalformed : Child.malformed ∉ (node.erase name).entries := by
    rw [hentries]
    exact malformed_notMem_entries ⟨kind, hnode⟩
  -- Each of these checks judges what is there, and that was there before.
  have hlengths : Findings.ofLengths rules (node.erase name) = [] :=
    Findings.ofLengths_eq_nil_iff.2 fun field max hmem value hget =>
      hnode.lengths field max hmem value (get?_of_get?_erase hget)
  have hconstraints : Findings.ofConstraints rules (node.erase name) = [] :=
    Findings.ofConstraints_eq_nil_iff.2 fun other constraint hmem value hget =>
      hnode.constraints other constraint hmem value (get?_of_get?_erase hget)
  have hweight : Findings.ofWeight parent (node.erase name) = [] :=
    Findings.ofWeight_eq_nil_iff.2 fun hthere => hnode.weight (contains_of_contains_erase hthere)
  have hexpressions : Findings.ofExpressions rules (node.erase name) = [] :=
    Findings.ofExpressions_eq_nil_iff.2 fun field hmem value hget =>
      hnode.expressions field hmem value (get?_of_get?_erase hget)
  have hdepth : Findings.ofDepth rules depth = [] := Findings.ofDepth_eq_nil_iff.2 hnode.depth
  have hofChildren : Findings.ofChildren rules (node.erase name) = [] :=
    (Findings.ofChildren_eq_nil_iff hmalformed).2 fun value hget =>
      hnode.children value (get?_of_get?_erase hget)
  -- What is left looks at the kind: either it stays, or there is none.
  obtain ⟨hkind, hcoordinates, hplacement⟩ :
      Findings.ofKind (node.erase name).kindTag = [] ∧
        Findings.ofCoordinates rules (node.erase name).kindTag (node.erase name) = [] ∧
        Findings.ofPlacement (node.erase name).kindTag (node.erase name) = [] := by
    by_cases htype : name = "type"
    · subst htype
      rw [kindTag_erase_type]
      exact ⟨rfl, rfl, by simp [Findings.ofPlacement]⟩
    · have htag : (node.erase name).kindTag = .known kind :=
        kindTag_eq_known_iff.2 ((get?_erase_of_ne (Ne.symm htype)).trans hnode.type)
      have habs : (node.erase name).SaysAbsolute = node.SaysAbsolute := by
        rw [SaysAbsolute, SaysAbsolute, get?_erase_of_ne habsolute]
      rw [htag]
      refine ⟨rfl, Findings.ofCoordinates_known_eq_nil_iff.2 fun other hmem value hget => ?_,
        Findings.ofPlacement_known_eq_nil_iff.2 fun hthere =>
          hnode.placement (contains_of_contains_erase hthere)⟩
      rw [habs]
      exact hnode.coordinates other hmem value (get?_of_get?_erase hget)
  simp [findings, Findings.ofValues, Findings.ofNesting, hkind, hlengths, hcoordinates,
    hconstraints, hplacement, hweight, hexpressions, hdepth, hofChildren]

/-- A node that is told nothing is told, below another parent, of its weight at most. -/
theorem findings_eq_ofWeight (h : node.findings rules parent depth = []) (parent' : Option Node) :
    node.findings rules parent' depth = Findings.ofWeight parent' node := by
  obtain ⟨before, between, behind, -, hshape⟩ := findings_shape rules node
  rw [hshape] at h ⊢
  simp only [List.append_eq_nil_iff] at h
  obtain ⟨⟨⟨⟨hbefore, -⟩, hbetween⟩, hdepth⟩, hbehind⟩ := h
  simp [hbefore, hbetween, hdepth, hbehind]

end Node

/-! ## §3 Children that have lost their parent's distribution -/

/-- The entry is a node with a weight. -/
def Child.hasWeight : Child → Bool
  | .node child => child.contains "weight"
  | .malformed => false

namespace Stop

variable {rules : RuleSet} {stop : Stop} {node other : Node} {kind : NodeKind} {name : String}

def weightViolation (stop : Stop) (index : Nat) : Violation :=
  ⟨⟨stop.address.child index, .field "weight"⟩, .invalidWeightUsage⟩

theorem violations_childOf (rules : RuleSet) (stop : Stop) (node child : Node) (index : Nat) :
    (stop.childOf node index (.node child)).violations rules =
      (child.findings rules (some node) (stop.depth + 1)).map
        (Finding.locate (stop.address.child index)) := by
  simp [violations, Node.violationsAt, childOf, address, depth, Address.child]

/-- Where nothing is found from a child entry on, nothing but its weight is found when the node
above does not distribute by weight. -/
theorem walk_childOf_loose {index : Nat} {entry : Child}
    (hvalid : (stop.childOf node index entry).walk rules = [])
    (hloose : Findings.distributesByWeight other = false) :
    (stop.childOf other index entry).walk rules =
      if entry.hasWeight then [stop.weightViolation index] else [] := by
  rw [walk_eq, List.append_eq_nil_iff] at hvalid
  obtain ⟨hfound, hbelow⟩ := hvalid
  have hnext : (stop.childOf other index entry).next = (stop.childOf node index entry).next :=
    next_congr rfl rfl
  rw [walk_eq, hnext, hbelow, List.append_nil]
  cases entry with
  | malformed => exact absurd hfound (by simp [violations, childOf])
  | node child =>
    rw [violations_childOf, List.map_eq_nil_iff] at hfound
    rw [violations_childOf, Node.findings_eq_ofWeight hfound]
    cases hweight : child.contains "weight" <;>
      simp [Findings.ofWeight, Child.hasWeight, hloose, hweight, Finding.locate, weightViolation]

/-- One violation for every child node with a weight, in the order of the entries. -/
def weightViolations (stop : Stop) (node : Node) : List Violation :=
  node.entries.zipIdx.flatMap fun (entry, i) =>
    if entry.hasWeight then [stop.weightViolation i] else []

/-- Where nothing is found from a node on, and a required attribute other than `type` is taken from
the node, one finds that it is missing. -/
theorem walk_modify_erase_of_ne_type (hvalid : stop.walk rules = [])
    (hnode : stop.entry = .node node) (hwell : node.WellFormedAs rules stop.parent stop.depth kind)
    (hname : name ∈ kind.required) (htype : name ≠ "type") :
    (stop.modify (Node.erase name)).walk rules =
      [⟨⟨stop.address, .node⟩, .missingRequiredAttribute name kind.name⟩] := by
  have hchildren : name ≠ "children" := ne_of_mem_of_not_mem hname (by cases kind <;> decide)
  have hdirection : name ≠ "direction" := ne_of_mem_of_not_mem hname (by cases kind <;> decide)
  have hget : (node.erase name).get? "type" = node.get? "type" := Node.get?_erase_of_ne htype.symm
  have htag : (node.erase name).kindTag = .known kind :=
    Node.kindTag_eq_known_iff.2 (hget.trans hwell.type)
  -- The node is of the same kind, so that its children are told the same.
  have hdistributes : Findings.distributesByWeight (node.erase name) =
      Findings.distributesByWeight node :=
    Node.distributesByWeight_congr hget (Node.get?_erase_of_ne hdirection.symm)
  have hchild : ∀ pair ∈ node.entries.zipIdx,
      (stop.childOf (node.erase name) pair.2 pair.1).walk rules = [] := by
    intro pair hpair
    rw [← ((walk_eq_nil_iff hnode).1 hvalid).2 pair.2 pair.1 (List.mem_zipIdx_iff_getElem?.1 hpair)]
    exact walk_congr rfl rfl (by simp [childOf, hdistributes])
  rw [walk_modify_of_entries rules hnode (Node.entries_erase hchildren.symm), Node.violationsAt,
    Node.findings_erase hwell hname, htag, Findings.ofVocabulary_erase hwell hname,
    List.flatMap_eq_nil_iff.2 hchild]
  rfl

/-- If it is `type` that is taken, one finds that, and then the weights of the child nodes. -/
theorem walk_modify_erase_type (hvalid : stop.walk rules = []) (hnode : stop.entry = .node node)
    (hwell : node.WellFormedAs rules stop.parent stop.depth kind) :
    (stop.modify (Node.erase "type")).walk rules =
      ⟨⟨stop.address, .node⟩, .missingRequiredAttribute "type" "untyped"⟩ ::
        stop.weightViolations node := by
  have hname : "type" ∈ kind.required := by cases kind <;> decide
  -- The node is of no kind any more, so that it does not distribute by weight.
  have hloose : Findings.distributesByWeight (node.erase "type") = false := by
    simp [Findings.distributesByWeight, Node.kindTag_erase_type]
  have hchild : ∀ pair ∈ node.entries.zipIdx,
      (stop.childOf (node.erase "type") pair.2 pair.1).walk rules =
        if pair.1.hasWeight then [stop.weightViolation pair.2] else [] := by
    intro pair hpair
    exact walk_childOf_loose (((walk_eq_nil_iff hnode).1 hvalid).2 pair.2 pair.1
      (List.mem_zipIdx_iff_getElem?.1 hpair)) hloose
  rw [walk_modify_of_entries rules hnode (Node.entries_erase (by decide)), Node.violationsAt,
    Node.findings_erase hwell hname, Node.kindTag_erase_type, List.flatMap_congr hchild]
  rfl

end Stop

/-! ## §4 The layout -/

/-- **One missing attribute, one violation.**  A required attribute is taken from one node of a
valid layout.  If it is not `type`, the layout has one violation, which says that the attribute is
missing at that node.  If it is `type`, there is one that says this of `type`, and behind it one
for the weight of every child node that has one, in the order of the children. -/
theorem Node.validate_erase {rules : RuleSet} {root node : Node} {stop : Stop} {kind : NodeKind}
    {name : String} (hvalid : root.validate rules = []) (hstop : root.start.LeadsTo stop)
    (hnode : stop.entry = .node node) (hkind : node.kindTag = .known kind)
    (hname : name ∈ kind.required) :
    (name ≠ "type" → (modifyAt (erase name) stop.steps root).validate rules =
      [⟨⟨stop.address, .node⟩, .missingRequiredAttribute name kind.name⟩]) ∧
    (name = "type" → (modifyAt (erase name) stop.steps root).validate rules =
      ⟨⟨stop.address, .node⟩, .missingRequiredAttribute "type" "untyped"⟩ ::
        stop.weightViolations node) ∧
    ∀ index, (stop.weightViolation index).path =
      stop.address.render ++ (".children[" ++ toString index ++ "]") ++ ".weight" := by
  obtain ⟨hwalk, hmodified⟩ := validate_modifyAt_of_valid hvalid hstop
  obtain ⟨kind', hwell⟩ := Stop.wellFormed_of_walk_eq_nil hwalk hnode
  -- A node is well formed as one of its own kind.
  have hkinds : KindTag.known kind' = .known kind :=
    (kindTag_eq_known_iff.2 hwell.type).symm.trans hkind
  cases hkinds
  rw [hmodified]
  refine ⟨Stop.walk_modify_erase_of_ne_type hwalk hnode hwell hname, ?_, fun index => ?_⟩
  · rintro rfl
    exact Stop.walk_modify_erase_type hwalk hnode hwell
  · rw [Violation.path, Location.render, Stop.weightViolation, Address.render_child]
    rfl

/-- A container that distributes by weight, and in it a text with a weight. -/
def Node.weighedRoot : Node :=
  ⟨[("id", .text "a"), ("type", .text "container"),
    ("position", .list [.number (.int 0), .number (.int 0)]), ("anchor", .text "center"),
    ("direction", .text "vertical"),
    ("children", .children [.node
      ⟨[("id", .text "b"), ("type", .text "text"),
        ("position", .list [.number (.int 0), .number (.int 0)]), ("anchor", .text "center"),
        ("content", .text "c"), ("weight", .number (.int 1))]⟩])]⟩

/-- Without its `type` the container does not distribute by weight any more. -/
theorem Node.validate_erase_weighedRoot :
    weighedRoot.validate .builtin = [] ∧
      (modifyAt (erase "type") [] weighedRoot).validate .builtin =
        [⟨⟨⟨"root", []⟩, .node⟩, .missingRequiredAttribute "type" "untyped"⟩,
          ⟨⟨⟨"root", [0]⟩, .field "weight"⟩, .invalidWeightUsage⟩] := by
  have hvalid : weighedRoot.validate .builtin = [] := by decide +kernel
  have hkind : weighedRoot.kindTag = .known .container := by decide
  have hname : "type" ∈ NodeKind.container.required := by decide
  have hstop : weighedRoot.start.LeadsTo weighedRoot.start := .refl
  obtain ⟨-, htype, -⟩ := validate_erase hvalid hstop rfl hkind hname
  exact ⟨hvalid, htype rfl⟩

end PanelLayout
