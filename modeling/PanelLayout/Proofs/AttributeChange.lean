import PanelLayout.Proofs.Findings.Aspects
import PanelLayout.Proofs.MissingAttribute

/-!
# One attribute changed

An attribute of one node is given another value.  Of the checks of that node, those that judge the
value say something else, and they say it at the attribute; the others see at most that the
attribute is there.  The nodes around see no more.

* `Node.DiffersIn` is the relation between the node as it was and the changed node.
* `Node.filter_findings_congr_attribute` compares what is found on the two.
* `Node.validate_attribute_change` is the comparison of the layouts.

Three attributes are seen by other checks than their own.  `type` and `children` decide what else is
judged, and a change there may change everything; `is_absolute` decides whether the coordinates must
lie on the canvas, so that a change there shows at their components too.
-/

namespace PanelLayout

/-! ## §1 Places of an attribute -/

namespace Place

/-- The places at which the value of an attribute is judged. -/
def ofAttribute (name : String) : List Place :=
  [.field name, .component name .x, .component name .y]

theorem mem_ofAttribute_iff {place : Place} {name : String} :
    place ∈ ofAttribute name ↔ place.name? = some name := by
  cases place with
  | node => simp [ofAttribute, name?]
  | field other => simp [ofAttribute, name?]
  | component other axis => cases axis <;> simp [ofAttribute, name?]

/-- The coordinates of a node of any kind are among these. -/
def coordinates : List String := ["position", "start", "end"]

theorem mem_coordinates {tag : KindTag} {name : String} (h : name ∈ tag.coordinates) :
    name ∈ coordinates := by
  have hall : ∀ kind : NodeKind, kind.coordinates ⊆ coordinates := by
    intro kind
    cases kind <;> decide
  cases tag with
  | known kind => exact hall kind h
  | _ => simp [KindTag.coordinates, KindTag.kind?] at h

/-- The places at which a node is told about its absolute placement. -/
def ofAbsolute : List Place :=
  .field "is_absolute" :: coordinates.flatMap fun name => [.component name .x, .component name .y]

theorem component_mem_ofAbsolute {name : String} (axis : Axis) (h : name ∈ coordinates) :
    .component name axis ∈ ofAbsolute := by
  refine List.mem_cons_of_mem _ (List.mem_flatMap.2 ⟨name, h, ?_⟩)
  cases axis <;> simp

end Place

/-! ## §2 Attributes that the rules ignore -/

/-- The attribute stands in no table: no kind has it or forbids it, its value is not constrained,
and its text is not limited. -/
structure RuleSet.Ignores (rules : RuleSet) (name : String) : Prop where
  required : ∀ kind : NodeKind, name ∉ kind.required
  optional : ∀ kind : NodeKind, name ∉ kind.optional
  forbidden : ∀ kind : NodeKind, name ∉ kind.forbidden
  constraints : name ∉ NamedList.names Constraint.table
  lengths : name ∉ NamedList.names rules.maxLengths

namespace RuleSet.Ignores

variable {rules : RuleSet} {name : String}

theorem ne_of_required (h : rules.Ignores name) (kind : NodeKind) {other : String}
    (hother : other ∈ kind.required) : other ≠ name :=
  fun heq => h.required kind (heq ▸ hother)

theorem ne_of_optional (h : rules.Ignores name) (kind : NodeKind) {other : String}
    (hother : other ∈ kind.optional) : other ≠ name :=
  fun heq => h.optional kind (heq ▸ hother)

theorem ne_type (h : rules.Ignores name) : "type" ≠ name :=
  h.ne_of_required .text (by decide)

theorem ne_children (h : rules.Ignores name) : "children" ≠ name :=
  h.ne_of_optional .container (by decide)

theorem ne_absolute (h : rules.Ignores name) : "is_absolute" ≠ name :=
  h.ne_of_optional .text (by decide)

theorem ne_direction (h : rules.Ignores name) : "direction" ≠ name :=
  h.ne_of_optional .container (by decide)

theorem ne_weight (h : rules.Ignores name) : "weight" ≠ name :=
  h.ne_of_optional .text (by decide)

theorem notMem_expressionFields (h : rules.Ignores name) :
    name ∉ Findings.expressionFields := by
  have hcontent : name ≠ "content" :=
    (h.ne_of_required .text (by decide)).symm
  have hicon : name ≠ "icon_id" :=
    (h.ne_of_required .icon (by decide)).symm
  have hcondition : name ≠ "condition" :=
    (h.ne_of_optional .text (by decide)).symm
  simp [Findings.expressionFields, hcontent, hicon, hcondition]

end RuleSet.Ignores

/-! ## §3 Two nodes that differ in one attribute -/

/-- A name's value is all that setting it changes. -/
theorem NamedList.filter_ne_set {α : Type} (name : String) (value : α)
    (entries : List (String × α)) :
    (set name value entries).filter (·.1 ≠ name) = entries.filter (·.1 ≠ name) := by
  induction entries with
  | nil => simp [set]
  | cons head rest ih =>
    obtain ⟨k, v⟩ := head
    by_cases hk : k = name
    · simp [set, hk]
    · rw [set, if_neg hk, List.filter_cons, List.filter_cons, ih]

/-- Two nodes that have the same attributes with the same values, but for the value of one; or but
for one that the rules ignore. -/
structure Node.DiffersIn (rules : RuleSet) (name : String) (a b : Node) : Prop where
  others : a.AgreeExcept name b
  forbidden : ∀ kind, Findings.ofForbidden kind a = Findings.ofForbidden kind b
  /-- An attribute that the rules know is there in both nodes or in neither. -/
  presence : rules.Ignores name ∨ a.contains name = b.contains name

namespace Node

variable {rules : RuleSet} {parent : Option Node} {depth : Nat} {a b node : Node}
  {name other : String} {keep : Finding → Bool}

theorem DiffersIn.contains_eq (h : DiffersIn rules name a b) (hother : ¬ rules.Ignores other) :
    a.contains other = b.contains other := by
  by_cases heq : other = name
  · rw [heq] at hother ⊢
    exact h.presence.resolve_left hother
  · exact contains_congr (h.others other heq)

theorem DiffersIn.distributesByWeight_eq (h : DiffersIn rules name a b) (htype : "type" ≠ name) :
    Findings.distributesByWeight a = Findings.distributesByWeight b := by
  have hdirection : a.contains "direction" = b.contains "direction" :=
    h.contains_eq fun hignored => hignored.ne_direction rfl
  rw [Findings.distributesByWeight, Findings.distributesByWeight, kindTag_congr (h.others _ htype),
    hdirection]

theorem DiffersIn.entries_eq (h : DiffersIn rules name a b) (hchildren : "children" ≠ name) :
    a.entries = b.entries := by
  rw [entries, entries, children?, children?, h.others _ hchildren]

/-- A node of which an attribute was given another value. -/
theorem differsIn_insert (hthere : node.contains name) (value : AttrValue) :
    DiffersIn rules name node (node.insert name value) where
  others other hother := (agreeExcept_insert other hother).symm
  forbidden kind := by
    have hmem := contains_iff_mem_names.1 hthere
    rw [Findings.ofForbidden, Findings.ofForbidden, insert, NamedList.names_set, if_pos hmem]
  presence := by
    right
    rw [hthere, contains, get?_insert, if_pos rfl]
    rfl

theorem erase_insert (node : Node) (name : String) (value : AttrValue) :
    (node.insert name value).erase name = node.erase name := by
  rw [erase, erase, insert, NamedList.filter_ne_set]

theorem erase_erase (node : Node) (name : String) :
    (node.erase name).erase name = node.erase name := by
  rw [erase, erase, List.filter_filter]
  simp

theorem names_erase :
    NamedList.names (node.erase name).attributes =
      (NamedList.names node.attributes).filter (· ≠ name) := by
  rw [NamedList.names, NamedList.names, erase, List.filter_map]
  rfl

/-- What a kind forbids is still there when an attribute is gone that it does not forbid. -/
theorem ofForbidden_erase {kind : NodeKind} (h : name ∉ kind.forbidden) :
    Findings.ofForbidden kind (node.erase name) = Findings.ofForbidden kind node := by
  rw [Findings.ofForbidden, Findings.ofForbidden, names_erase, List.filter_filter]
  refine congrArg _ (List.filter_congr fun other _ => ?_)
  by_cases hother : other ∈ kind.forbidden
  · have hne : other ≠ name := fun heq => h (heq ▸ hother)
    simp [hother, hne]
  · simp [hother]

/-- Nodes that are the same once an ignored attribute is left aside. -/
theorem differsIn_of_erase_eq (hignored : rules.Ignores name) (h : a.erase name = b.erase name) :
    DiffersIn rules name a b where
  others other hother := by rw [← get?_erase_of_ne hother, h, get?_erase_of_ne hother]
  forbidden kind := by
    rw [← ofForbidden_erase (hignored.forbidden kind), h,
      ofForbidden_erase (hignored.forbidden kind)]
  presence := .inl hignored

/-! ## §4 What is found on the two nodes -/

/-- Where a check goes through a table, two nodes are told the same but for what is dropped. -/
theorem filter_onAttributes_congr {ι : Type} {table : List ι} {row : ι → String}
    {judge : ι → AttrValue → List Finding} (h : a.AgreeExcept name b)
    (hdrop : ∀ item ∈ table, row item = name →
      ∀ value, ∀ finding ∈ judge item value, keep finding = false) :
    (Findings.onAttributes a table row judge).filter keep =
      (Findings.onAttributes b table row judge).filter keep := by
  rw [Findings.filter_onAttributes, Findings.filter_onAttributes]
  refine Findings.onAttributes_congr fun item hitem => ?_
  by_cases hname : row item = name
  · -- The judgements on the changed attribute are dropped, whatever its value.
    have hnil : ∀ value, (judge item value).filter keep = [] := by
      intro value
      rw [List.filter_eq_nil_iff]
      intro finding hfinding
      simp [hdrop item hitem hname value finding hfinding]
    exact .inr fun value => ⟨hnil value, hnil value⟩
  · exact .inl ⟨h _ hname, rfl⟩

/-- The coordinates of two nodes that agree on how they are placed. -/
theorem filter_ofCoordinates_congr (h : a.AgreeExcept name b) (habsolute : "is_absolute" ≠ name)
    (tag : KindTag)
    (hdrop : name ∈ tag.coordinates →
      ∀ finding : Finding, finding.place.name? = some name → keep finding = false) :
    (Findings.ofCoordinates rules tag a).filter keep =
      (Findings.ofCoordinates rules tag b).filter keep := by
  rw [Findings.ofCoordinates_eq_onAttributes, Findings.ofCoordinates_eq_onAttributes,
    isAbsolute_congr (h _ habsolute)]
  refine filter_onAttributes_congr h fun item hitem hname value finding hfinding => ?_
  rw [id] at hname
  subst hname
  exact hdrop hitem finding (Findings.place_of_mem_ofCoordinate hfinding).1

/-- When the components are dropped, a coordinate is judged without regard to the placement. -/
theorem filter_ofCoordinate_congr {coordinate : String} (absolute absolute' : Bool)
    (value : AttrValue)
    (hdrop : ∀ finding : Finding, ∀ axis, finding.place = .component coordinate axis →
      keep finding = false) :
    (Findings.ofCoordinate rules absolute coordinate value).filter keep =
      (Findings.ofCoordinate rules absolute' coordinate value).filter keep := by
  cases value with
  | list items =>
    have hbounds : ∀ absolute,
        (Findings.judgeBounds rules.canvas absolute coordinate items).filter keep = [] := by
      intro absolute
      rw [List.filter_eq_nil_iff]
      intro finding hfinding
      obtain ⟨axis, hconcerns⟩ := Findings.concernsComponent_of_mem_judgeBounds hfinding
      simp [hdrop finding axis hconcerns.place]
    simp only [Findings.ofCoordinate_list, List.filter_append, hbounds]
  | _ => rfl

/-- On two nodes that differ in one attribute the same is found on every aspect, as far as it is
not dropped; the coordinates are left to be compared. -/
theorem filter_findingsOn_congr_attribute (h : DiffersIn rules name a b) (htype : "type" ≠ name)
    (hchildren : "children" ≠ name)
    (hdrop : ¬ rules.Ignores name →
      ∀ finding : Finding, finding.place = .field name → keep finding = false)
    (hcoordinates : ∀ tag, (Findings.ofCoordinates rules tag a).filter keep =
      (Findings.ofCoordinates rules tag b).filter keep)
    (aspect : Aspect) :
    (a.findingsOn rules parent depth aspect).filter keep =
      (b.findingsOn rules parent depth aspect).filter keep := by
  have hkind : a.kindTag = b.kindTag := kindTag_congr (h.others _ htype)
  cases aspect with
  | kind => rw [findingsOn, findingsOn, hkind]
  | lengths =>
    rw [findingsOn, findingsOn, Findings.ofLengths_eq_onAttributes,
      Findings.ofLengths_eq_onAttributes]
    refine filter_onAttributes_congr h.others fun limit hlimit hname value finding hfinding => ?_
    have hread : ¬ rules.Ignores name := fun hignored =>
      hignored.lengths (hname ▸ List.mem_map.2 ⟨limit, hlimit, rfl⟩)
    exact hdrop hread finding
      (hname ▸ ((Findings.atMostOne_judgeLength limit value).of_mem hfinding).place)
  | required =>
    rw [findingsOn, findingsOn, hkind]
    refine congrArg _ (Findings.ofRequired_congr fun kind other hother => ?_)
    exact h.contains_eq fun hignored => hignored.required kind hother
  | forbidden =>
    rw [findingsOn, findingsOn, hkind]
    cases b.kindTag with
    | known kind => exact congrArg _ (h.forbidden kind)
    | _ => rfl
  | coordinates =>
    rw [findingsOn, findingsOn, hkind]
    exact hcoordinates b.kindTag
  | constraints =>
    rw [findingsOn, findingsOn, Findings.ofConstraints_eq_onAttributes,
      Findings.ofConstraints_eq_onAttributes]
    refine filter_onAttributes_congr h.others fun row hrow hname value finding hfinding => ?_
    have hread : ¬ rules.Ignores name := fun hignored =>
      hignored.constraints (hname ▸ List.mem_map.2 ⟨row, hrow, rfl⟩)
    exact hdrop hread finding
      (hname ▸ ((Findings.atMostOne_judgeConstraint hrow value).of_mem hfinding).place)
  | placement =>
    have hcontains : a.contains "is_absolute" = b.contains "is_absolute" :=
      h.contains_eq fun hignored => hignored.ne_absolute rfl
    rw [findingsOn, findingsOn, hkind, Findings.ofPlacement, Findings.ofPlacement, hcontains]
  | weight =>
    have hcontains : a.contains "weight" = b.contains "weight" :=
      h.contains_eq fun hignored => hignored.ne_weight rfl
    rw [findingsOn, findingsOn, Findings.ofWeight, Findings.ofWeight, hcontains]
  | expressions =>
    rw [findingsOn, findingsOn, Findings.ofExpressions_eq_onAttributes,
      Findings.ofExpressions_eq_onAttributes]
    refine filter_onAttributes_congr h.others fun field hfield hname value finding hfinding => ?_
    have hread : ¬ rules.Ignores name := fun hignored =>
      hignored.notMem_expressionFields (hname ▸ hfield)
    exact hdrop hread finding (hname ▸ (Findings.concerns_of_mem_judgeExpression hfinding).place)
  | depth => rfl
  | children =>
    rw [findingsOn, findingsOn]
    unfold Findings.ofChildren
    rw [h.others _ hchildren]

/-- On two nodes that differ in one attribute the same is found, as far as it is not dropped. -/
theorem filter_findings_congr_attribute (h : DiffersIn rules name a b) (htype : "type" ≠ name)
    (hchildren : "children" ≠ name)
    (hdrop : ¬ rules.Ignores name →
      ∀ finding : Finding, finding.place = .field name → keep finding = false)
    (hcoordinates : ∀ tag, (Findings.ofCoordinates rules tag a).filter keep =
      (Findings.ofCoordinates rules tag b).filter keep) :
    (a.findings rules parent depth).filter keep = (b.findings rules parent depth).filter keep := by
  rw [findings_eq_flatMap_aspects, findings_eq_flatMap_aspects, List.filter_flatMap,
    List.filter_flatMap]
  exact List.flatMap_congr fun aspect _ =>
    filter_findingsOn_congr_attribute h htype hchildren hdrop hcoordinates aspect

/-- An attribute that the checks judge each for itself shows at its own places only. -/
theorem filter_findings_insert (hthere : node.contains name) (value : AttrValue)
    (hname : name ∉ ["type", "is_absolute", "children"]) :
    ((node.insert name value).findings rules parent depth).filter
        (·.place ∉ Place.ofAttribute name) =
      (node.findings rules parent depth).filter (·.place ∉ Place.ofAttribute name) := by
  simp only [List.mem_cons, List.not_mem_nil, or_false, not_or] at hname
  obtain ⟨htype, habsolute, hchildren⟩ := hname
  have hdiffers : DiffersIn rules name node (node.insert name value) :=
    differsIn_insert hthere value
  have hdrop : ∀ finding : Finding, finding.place.name? = some name →
      decide (finding.place ∉ Place.ofAttribute name) = false := by
    intro finding hplace
    simpa using Place.mem_ofAttribute_iff.2 hplace
  refine (filter_findings_congr_attribute hdiffers (Ne.symm htype) (Ne.symm hchildren)
    (fun _ finding hplace => hdrop finding ?_) fun tag => ?_).symm
  · rw [hplace, Place.name?]
  · exact filter_ofCoordinates_congr hdiffers.others (Ne.symm habsolute) tag fun _ => hdrop

/-- How a node is placed shows at the attribute that says it, and at the components of the
coordinates. -/
theorem filter_findings_insert_absolute (hthere : node.contains "is_absolute")
    (value : AttrValue) :
    ((node.insert "is_absolute" value).findings rules parent depth).filter
        (·.place ∉ Place.ofAbsolute) =
      (node.findings rules parent depth).filter (·.place ∉ Place.ofAbsolute) := by
  have hdiffers : DiffersIn rules "is_absolute" node (node.insert "is_absolute" value) :=
    differsIn_insert hthere value
  refine (filter_findings_congr_attribute hdiffers (by decide) (by decide)
    (fun _ finding hplace => ?_) fun tag => ?_).symm
  · rw [hplace]
    decide
  · rw [Findings.ofCoordinates_eq_onAttributes, Findings.ofCoordinates_eq_onAttributes,
      Findings.filter_onAttributes, Findings.filter_onAttributes]
    refine Findings.onAttributes_congr fun coordinate hcoordinate => .inl ⟨?_, funext fun value => ?_⟩
    · have habsolute : "is_absolute" ∉ Place.coordinates := by decide
      exact hdiffers.others _ (ne_of_mem_of_not_mem (Place.mem_coordinates hcoordinate) habsolute)
    · refine filter_ofCoordinate_congr _ _ value fun finding axis hplace => ?_
      simpa [hplace] using Place.component_mem_ofAbsolute axis (Place.mem_coordinates hcoordinate)

/-- An attribute that the rules ignore does not show at all. -/
theorem findings_congr_ignored (hignored : rules.Ignores name) (h : a.erase name = b.erase name) :
    a.findings rules parent depth = b.findings rules parent depth := by
  have hdiffers : DiffersIn rules name a b := differsIn_of_erase_eq hignored h
  have hall : ∀ findings : List Finding, findings.filter (fun _ => true) = findings :=
    fun findings => List.filter_eq_self.2 fun _ _ => rfl
  -- No coordinate has the ignored name, so nothing is to be dropped.
  have hcoordinates : ∀ tag : KindTag, name ∉ tag.coordinates := by
    intro tag hmem
    cases tag with
    | known kind =>
      have hrequired : kind.coordinates ⊆ kind.required := by cases kind <;> decide
      exact hignored.required kind (hrequired hmem)
    | _ => simp [KindTag.coordinates, KindTag.kind?] at hmem
  rw [← hall (a.findings rules parent depth), ← hall (b.findings rules parent depth)]
  exact filter_findings_congr_attribute hdiffers hignored.ne_type hignored.ne_children
    (fun hread => absurd hignored hread) fun tag =>
      filter_ofCoordinates_congr hdiffers.others hignored.ne_absolute tag fun hmem =>
        absurd hmem (hcoordinates tag)

end Node

/-! ## §5 The layout -/

namespace Violation

/-- Two lists of violations are the same once those at some locations are dropped, whether these
are told by the locations themselves or by their texts. -/
structure AgreeAside (locations : List Location) (violations violations' : List Violation) :
    Prop where
  location : violations.filter (·.location ∉ locations) =
    violations'.filter (·.location ∉ locations)
  path : violations.filter (·.path ∉ locations.map Location.render) =
    violations'.filter (·.path ∉ locations.map Location.render)

variable {locations : List Location} {violations violations' : List Violation}

/-- What has another path has another location. -/
theorem agreeAside_of_location (h : violations.filter (·.location ∉ locations) =
    violations'.filter (·.location ∉ locations)) : AgreeAside locations violations violations' where
  location := h
  path := by
    have hpath : ∀ list : List Violation, list.filter (·.path ∉ locations.map Location.render) =
        (list.filter (·.location ∉ locations)).filter
          (·.path ∉ locations.map Location.render) := by
      intro list
      rw [List.filter_filter]
      refine List.filter_congr fun violation _ => ?_
      by_cases hmem : violation.location ∈ locations
      · have hrender : violation.path ∈ locations.map Location.render :=
          List.mem_map.2 ⟨_, hmem, rfl⟩
        simp [hrender]
      · simp [hmem]
    rw [hpath violations, hpath violations', h]

/-- Only what is found at one node differs, and only at some places of it. -/
theorem agreeAside_locate {address : Address} {places : List Place} {found found' : List Finding}
    (before after : List Violation)
    (h : found'.filter (·.place ∉ places) = found.filter (·.place ∉ places)) :
    AgreeAside (places.map (Location.mk address))
      (before ++ found.map (Finding.locate address) ++ after)
      (before ++ found'.map (Finding.locate address) ++ after) := by
  have hlocate : ∀ findings : List Finding,
      (findings.map (Finding.locate address)).filter
          (·.location ∉ places.map (Location.mk address)) =
        (findings.filter (·.place ∉ places)).map (Finding.locate address) := by
    intro findings
    rw [List.filter_map]
    refine congrArg _ (List.filter_congr fun finding _ => ?_)
    have hmem : (finding.locate address).location ∈ places.map (Location.mk address) ↔
        finding.place ∈ places := by simp [Finding.locate]
    exact decide_eq_decide.2 (not_congr hmem)
  refine agreeAside_of_location ?_
  rw [List.filter_append, List.filter_append, List.filter_append, List.filter_append, hlocate,
    hlocate, h]

end Violation

/-- **One attribute changed.**  One node of a layout is changed.  If an attribute that it has is
given another value, the violations stay the same, but for those at the attribute and its
components; `is_absolute` shows at the components of the coordinates as well, and of `type` and
`children` nothing is said.  If an attribute that the rules ignore comes, goes, or changes, wherever
it stands, the violations stay the same altogether. -/
theorem Node.validate_attribute_change (rules : RuleSet) {root node : Node} {stop : Stop}
    (hstop : root.start.LeadsTo stop) (hnode : stop.entry = .node node) :
    (∀ name value, name ∉ ["type", "is_absolute", "children"] → node.contains name →
      Violation.AgreeAside ((Place.ofAttribute name).map (Location.mk stop.address))
        (root.validate rules)
        ((modifyAt (insert · name value) stop.steps root).validate rules)) ∧
    (∀ value, node.contains "is_absolute" →
      Violation.AgreeAside (Place.ofAbsolute.map (Location.mk stop.address))
        (root.validate rules)
        ((modifyAt (insert · "is_absolute" value) stop.steps root).validate rules)) ∧
    ∀ name, rules.Ignores name →
      (∀ value, (modifyAt (insert · name value) stop.steps root).validate rules =
        root.validate rules) ∧
      (modifyAt (erase name) stop.steps root).validate rules = root.validate rules ∧
      ∀ f : Node → Node, (f node).erase name = node.erase name →
        (modifyAt f stop.steps root).validate rules = root.validate rules := by
  obtain ⟨before, after, hwalk, hmodified⟩ := validate_modifyAt_of_entries rules hstop hnode
  refine ⟨?value, ?absolute, ?ignored⟩
  case value =>
    intro name value hname hthere
    have hdiffers : DiffersIn rules name node (node.insert name value) :=
      differsIn_insert hthere value
    simp only [List.mem_cons, List.not_mem_nil, or_false, not_or] at hname
    rw [hwalk, hmodified _ (hdiffers.entries_eq (Ne.symm hname.2.2)).symm
      (hdiffers.distributesByWeight_eq (Ne.symm hname.1)).symm]
    exact Violation.agreeAside_locate before after
      (filter_findings_insert hthere value (by simpa using hname))
  case absolute =>
    intro value hthere
    have hdiffers : DiffersIn rules "is_absolute" node (node.insert "is_absolute" value) :=
      differsIn_insert hthere value
    rw [hwalk, hmodified _ (hdiffers.entries_eq (by decide)).symm
      (hdiffers.distributesByWeight_eq (by decide)).symm]
    exact Violation.agreeAside_locate before after (filter_findings_insert_absolute hthere value)
  case ignored =>
    intro name hignored
    have hsame : ∀ f : Node → Node, (f node).erase name = node.erase name →
        (modifyAt f stop.steps root).validate rules = root.validate rules := by
      intro f herase
      have hdiffers : DiffersIn rules name (f node) node := differsIn_of_erase_eq hignored herase
      rw [hwalk, hmodified f (hdiffers.entries_eq hignored.ne_children)
        (hdiffers.distributesByWeight_eq hignored.ne_type), violationsAt, violationsAt,
        findings_congr_ignored hignored herase]
    exact ⟨fun value => hsame _ (erase_insert node name value), hsame _ (erase_erase node name),
      hsame⟩

/-- A text that is placed absolutely, and outside the built-in canvas. -/
def Node.farText : Node :=
  ⟨[("id", .text "b"), ("type", .text "text"),
    ("position", .list [.number (.int 900), .number (.int 0)]), ("anchor", .text "center"),
    ("content", .text "x"), ("is_absolute", .bool true)]⟩

/-- A container with that text in it. -/
def Node.farFrame : Node :=
  ⟨[("id", .text "a"), ("type", .text "container"),
    ("position", .list [.number (.int 0), .number (.int 0)]), ("anchor", .text "center"),
    ("children", .children [.node farText])]⟩

/-- The stop at the text. -/
def Stop.inFarFrame : Stop := Node.farFrame.start.childOf Node.farFrame 0 (.node Node.farText)

/-- A bad content shows at the content, the placement at the position, and a note not at all. -/
theorem Node.validate_farText_change :
    farFrame.start.LeadsTo Stop.inFarFrame ∧ farText.contains "content" ∧
      farText.contains "is_absolute" ∧ RuleSet.builtin.Ignores "note" ∧
      (farFrame.validate .builtin).map Violation.path = ["root.children[0].position.x"] ∧
      Violation.AgreeAside ((Place.ofAttribute "content").map (Location.mk ⟨"root", [0]⟩))
        (farFrame.validate .builtin)
        ((modifyAt (insert · "content" (.text "")) [0] farFrame).validate .builtin) ∧
      Violation.AgreeAside (Place.ofAbsolute.map (Location.mk ⟨"root", [0]⟩))
        (farFrame.validate .builtin)
        ((modifyAt (insert · "is_absolute" (.bool false)) [0] farFrame).validate .builtin) ∧
      (modifyAt (insert · "note" .null) [0] farFrame).validate .builtin =
        farFrame.validate .builtin := by
  have hstop : farFrame.start.LeadsTo Stop.inFarFrame := .single (List.mem_cons_self ..)
  have hcontent : farText.contains "content" := by decide
  have habsolute : farText.contains "is_absolute" := by decide
  have hignored : RuleSet.builtin.Ignores "note" :=
    { required := fun kind => by cases kind <;> decide
      optional := fun kind => by cases kind <;> decide
      forbidden := fun kind => by cases kind <;> decide
      constraints := by decide
      lengths := by decide }
  have hpaths : (farFrame.validate .builtin).map Violation.path =
      ["root.children[0].position.x"] := by decide +kernel
  obtain ⟨hvalue, hplacement, hignoring⟩ := validate_attribute_change .builtin hstop rfl
  exact ⟨hstop, hcontent, habsolute, hignored, hpaths,
    hvalue "content" (.text "") (by decide) hcontent, hplacement (.bool false) habsolute,
    (hignoring "note" hignored).1 .null⟩

end PanelLayout
