import PanelLayout.Proofs.Conversion.Attributes
import PanelLayout.Proofs.Places

/-!
# Child entries from the document to the report

A document holds child entries as the items of a sequence, and the layout holds them as the child
entries of a node.  No item is dropped on the way: one that wraps no node keeps its place as a
malformed entry.  So the indices that lead to a node in the document lead to it in the layout, and
in the report a malformed entry stands where it stands in the document.

* `Yaml.Value.childItems?` and `Yaml.Value.wrapped?` say what is looked for in the document, and
  `Yaml.Value.descend?` follows some indices there.
* `Node.children?_of_ofValue?` and `Child.ofValue_eq` read the child entries of a node off the
  document.
* `Stop.descend?_of_leadsTo` takes the walk of the layout back to the document.

`Document.keeps_childItems` puts them together.
-/

namespace PanelLayout

open Yaml (Value)

/-! ## §1 Child entries in a document -/

namespace Yaml.Value

/-- The items of a sequence under `children`; a tagged sequence has no child entries. -/
def childItems? (value : Value) : Option (List Value) :=
  match value.under? "children" with
  | some (.sequence items) => some items
  | _ => none

/-- Is this the key under which a child entry holds its node? -/
def isNodeKey : Value → Bool
  | .string text => text = "node"
  | _ => false

/-- What a mapping holds under the key `node`. -/
def atNodeKey? (item : Value) : Option Value :=
  match item.untagged with
  | .mapping entries => (entries.find? fun entry => entry.1.isNodeKey).map (·.2)
  | _ => none

/-- The mapping that a child entry holds under the key `node`. -/
def wrapped? (item : Value) : Option Value := item.atNodeKey?.filter isMapping

/-- The mapping that the child entry at an index wraps. -/
def child? (value : Value) (index : Nat) : Option Value :=
  (value.childItems?.bind (·[index]?)).bind wrapped?

/-- Where some indices of child entries lead. -/
def descend? (value : Value) : List Nat → Option Value
  | [] => some value
  | index :: rest => (value.child? index).bind (·.descend? rest)

theorem childItems?_eq_some_iff {value : Value} {items : List Value} :
    value.childItems? = some items ↔ value.under? "children" = some (.sequence items) := by
  unfold childItems?
  split
  · rename_i items' hunder
    rw [hunder]
    simp
  · rename_i hother
    exact ⟨fun h => absurd h (by simp), fun hunder => absurd hunder (hother items)⟩

theorem wrapped?_eq_some_iff {item content : Value} :
    item.wrapped? = some content ↔
      item.atNodeKey? = some content ∧ content.isMapping = true := by
  rw [wrapped?, Option.filter_eq_some_iff]

theorem child?_eq {value item : Value} {items : List Value} {index : Nat}
    (hitems : value.childItems? = some items) (hitem : items[index]? = some item) :
    value.child? index = item.wrapped? := by
  rw [child?, hitems, Option.bind_some, hitem, Option.bind_some]

/-- One index more leads to what the child entry there wraps. -/
theorem descend?_append_singleton (value : Value) (steps : List Nat) (index : Nat) :
    value.descend? (steps ++ [index]) = (value.descend? steps).bind (·.child? index) := by
  induction steps generalizing value with
  | nil => exact Option.bind_fun_some (value.child? index)
  | cons step rest ih =>
    rw [List.cons_append, descend?, descend?, Option.bind_assoc]
    exact congrArg _ (funext ih)

end Yaml.Value

/-! ## §2 Child entries of a node -/

theorem Child.ofValues_eq_map (items : List Value) :
    Child.ofValues items = items.map Child.ofValue := by
  induction items with
  | nil => rfl
  | cons item rest ih => rw [Child.ofValues, ih, List.map_cons]

theorem AttrValue.ofValues_eq_map (items : List Value) :
    AttrValue.ofValues items = items.map (AttrValue.ofValue false) := by
  induction items with
  | nil => rfl
  | cons item rest ih => rw [AttrValue.ofValues, ih, List.map_cons]

theorem AttrValue.ofValue_false_ne_children (value : Value) (entries : List Child) :
    AttrValue.ofValue false value ≠ .children entries := by
  rw [← AttrValue.ofValue_untagged]
  cases huntagged : value.untagged with
  | tagged tag inner => exact absurd huntagged (value.untagged_ne_tagged tag inner)
  | _ => simp [AttrValue.ofValue]

/-- Only an untagged sequence is read as child entries. -/
theorem AttrValue.ofValue_eq_children_iff {asChildren : Bool} {value : Value}
    {entries : List Child} :
    AttrValue.ofValue asChildren value = .children entries ↔
      asChildren = true ∧ ∃ items, value = .sequence items ∧ entries = items.map Child.ofValue := by
  cases value with
  | sequence items => cases asChildren <;> simp [AttrValue.ofValue, Child.ofValues_eq_map, eq_comm]
  | tagged tag value => simp [AttrValue.ofValue, AttrValue.ofValue_false_ne_children]
  | _ => simp [AttrValue.ofValue]

/-- What is not read as child entries is converted as if no tag stood on it. -/
theorem AttrValue.eq_children_or_eq_untagged (asChildren : Bool) (value : Value) :
    (∃ entries, AttrValue.ofValue asChildren value = .children entries) ∨
      AttrValue.ofValue asChildren value = AttrValue.ofValue false value.untagged := by
  cases value with
  | sequence items =>
    cases asChildren with
    | false => exact .inr rfl
    | true => exact .inl ⟨Child.ofValues items, by simp [AttrValue.ofValue]⟩
  | tagged tag value => exact .inr (AttrValue.ofValue_untagged (.tagged tag value)).symm
  | _ => exact .inr rfl

/-- The child entries of a node are the converted items, one by one. -/
theorem Node.children?_of_ofValue? {value : Value} {node : Node}
    (h : Node.ofValue? value = some node) :
    node.children? = value.childItems?.map (List.map Child.ofValue) := by
  refine Option.ext fun entries => ?_
  rw [Node.children?_eq_some_iff, Node.get?_of_ofValue? h, Option.map_eq_some_iff,
    Option.map_eq_some_iff]
  constructor
  · rintro ⟨content, hunder, hcontent⟩
    obtain ⟨-, items, rfl, rfl⟩ := AttrValue.ofValue_eq_children_iff.1 hcontent
    exact ⟨items, Value.childItems?_eq_some_iff.2 hunder, rfl⟩
  · rintro ⟨items, hitems, rfl⟩
    exact ⟨.sequence items, Value.childItems?_eq_some_iff.1 hitems,
      AttrValue.ofValue_eq_children_iff.2 ⟨rfl, items, rfl, rfl⟩⟩

/-- Each child entry of a node is the conversion of the item in its place. -/
theorem Node.getElem?_entries_iff {value : Value} {node : Node}
    (h : Node.ofValue? value = some node) {index : Nat} {entry : Child} :
    node.entries[index]? = some entry ↔
      ∃ items item, value.childItems? = some items ∧ items[index]? = some item ∧
        Child.ofValue item = entry := by
  rw [Node.entries, Node.children?_of_ofValue? h]
  cases value.childItems? with
  | none => simp
  | some items =>
    rw [Option.map_some, Option.getD_some, List.getElem?_map, Option.map_eq_some_iff]
    constructor
    · rintro ⟨item, hitem⟩
      exact ⟨items, item, rfl, hitem⟩
    · rintro ⟨_, item, ⟨⟩, hitem⟩
      exact ⟨item, hitem⟩

theorem Child.ofEntries_eq (entries : List (Value × Value)) :
    Child.ofEntries entries =
      (((entries.find? fun entry => entry.1.isNodeKey).map (·.2)).bind Node.ofValue?).elim
        .malformed .node := by
  induction entries with
  | nil => rfl
  | cons entry rest ih =>
    obtain ⟨key, value⟩ := entry
    -- The first key `node` decides, even if what it holds is no mapping.
    by_cases hkey : key = .string "node"
    · subst hkey
      rw [Child.ofEntries]
      cases hnode : Node.ofValue? value <;> simp [Value.isNodeKey, hnode]
    · have hother : key.isNodeKey = false := by
        cases key <;> simp_all [Value.isNodeKey]
      rw [Child.ofEntries, ih, List.find?_cons, hother]
      exact fun _ heq => absurd (congrArg Prod.fst heq) hkey

/-- An item is converted to the node of what it holds under the key `node`, if it has one. -/
theorem Child.ofValue_eq (item : Value) :
    Child.ofValue item = (item.atNodeKey?.bind Node.ofValue?).elim .malformed .node := by
  rw [← Child.ofValue_untagged, Value.atNodeKey?]
  cases huntagged : item.untagged with
  | mapping entries => rw [Child.ofValue, Child.ofEntries_eq]
  | tagged tag inner => exact absurd huntagged (item.untagged_ne_tagged tag inner)
  | _ => rfl

/-- The child entry of an item is a node just if the item wraps a mapping. -/
theorem Child.ofValue_eq_node_iff {item : Value} {child : Node} :
    Child.ofValue item = .node child ↔
      ∃ content, item.wrapped? = some content ∧ Node.ofValue? content = some child := by
  have hnode : Child.ofValue item = .node child ↔
      item.atNodeKey?.bind Node.ofValue? = some child := by
    rw [Child.ofValue_eq]
    cases item.atNodeKey?.bind Node.ofValue? <;> simp
  rw [hnode, Option.bind_eq_some_iff]
  refine exists_congr fun content => ?_
  rw [Value.wrapped?_eq_some_iff, and_assoc]
  refine and_congr_right fun _ => ⟨fun h => ⟨?_, h⟩, And.right⟩
  exact Node.exists_ofValue?_iff.1 ⟨child, h⟩

theorem Child.exists_node_iff {item : Value} :
    (∃ child, Child.ofValue item = .node child) ↔ ∃ content, item.wrapped? = some content := by
  constructor
  · rintro ⟨child, hchild⟩
    obtain ⟨content, hcontent, -⟩ := Child.ofValue_eq_node_iff.1 hchild
    exact ⟨content, hcontent⟩
  · rintro ⟨content, hcontent⟩
    -- What is wrapped is a mapping, so it is converted to a node.
    have hmapping := (Value.wrapped?_eq_some_iff.1 hcontent).2
    obtain ⟨child, hchild⟩ := Node.exists_ofValue?_iff.2 hmapping
    exact ⟨child, Child.ofValue_eq_node_iff.2 ⟨content, hcontent, hchild⟩⟩

theorem Child.ofValue_eq_malformed_iff {item : Value} :
    Child.ofValue item = .malformed ↔ item.wrapped? = none := by
  have hnode : Child.ofValue item = .malformed ↔ ¬ ∃ child, Child.ofValue item = .node child := by
    cases Child.ofValue item <;> simp
  rw [hnode, Child.exists_node_iff, Option.eq_none_iff_forall_ne_some, not_exists]

/-! ## §3 The walk and the document -/

namespace Stop

/-- Where the walk comes to a node, the same indices lead in the document to a mapping that the
node is the conversion of. -/
theorem descend?_of_leadsTo {document : Value} {root : Node}
    (hroot : Node.ofValue? document = some root) {stop : Stop} (hstop : root.start.LeadsTo stop)
    {node : Node} (hnode : stop.entry = .node node) :
    ∃ value, document.descend? stop.steps = some value ∧ Node.ofValue? value = some node := by
  induction hstop generalizing node with
  | refl =>
    obtain rfl : root = node := Child.node.inj hnode
    exact ⟨document, rfl, hroot⟩
  | tail _ hnext ih =>
    obtain ⟨above, index, entry, habove, hget, rfl⟩ := mem_next_iff.1 hnext
    obtain ⟨value, hvalue, hconverted⟩ := ih habove
    -- The entry is the conversion of an item, and what the item wraps is the node.
    obtain ⟨items, item, hitems, hitem, hentry⟩ := (Node.getElem?_entries_iff hconverted).1 hget
    obtain ⟨content, hcontent, hchild⟩ := Child.ofValue_eq_node_iff.1 (hentry.trans hnode)
    refine ⟨content, ?_, hchild⟩
    show document.descend? (_ ++ [index]) = some content
    rw [Value.descend?_append_singleton, hvalue, Option.bind_some,
      Value.child?_eq hitems hitem, hcontent]

/-- From a node the walk goes on to the conversion of each of its items. -/
theorem leadsTo_childOf_iff {root node : Node} {stop : Stop} (hstop : root.start.LeadsTo stop)
    (hnode : stop.entry = .node node) {value : Value} (hvalue : Node.ofValue? value = some node)
    {items : List Value} (hitems : value.childItems? = some items) {index : Nat} {item : Value}
    (hitem : items[index]? = some item) {entry : Child} :
    root.start.LeadsTo (stop.childOf node index entry) ↔ entry = Child.ofValue item := by
  have hget : node.entries[index]? = some (Child.ofValue item) :=
    (Node.getElem?_entries_iff hvalue).2 ⟨items, item, hitems, hitem, rfl⟩
  have hnext : root.start.LeadsTo (stop.childOf node index (Child.ofValue item)) :=
    hstop.tail (mem_next_iff.2 ⟨node, index, _, hnode, hget, rfl⟩)
  constructor
  · intro h
    -- The indices lead to one stop only.
    have hsame := eq_of_steps_eq h hnext rfl
    exact congrArg Stop.entry hsame
  · rintro rfl
    exact hnext

/-! ## §4 Malformed entries in the report -/

variable {root : Node} {stop : Stop} (rules : RuleSet)

/-- At a malformed entry, and below it, that is all there is to report. -/
theorem filter_validate_malformed (hstop : root.start.LeadsTo stop)
    (hentry : stop.entry = .malformed) :
    (root.validate rules).filter (fun violation =>
        decide (stop.steps <+: violation.location.address.steps)) =
      [Walk.malformedAt stop.address] := by
  rw [← violations_of_malformed hentry, ← filter_validate_address hstop]
  refine List.filter_congr fun violation hviolation => ?_
  obtain ⟨inner, hinner, hviolation⟩ := Node.mem_validate_iff.1 hviolation
  rw [address_of_mem_violations hviolation, decide_eq_decide]
  constructor
  · intro hprefix
    -- The walk does not go on from a malformed entry.
    rcases (leadsTo_of_isPrefix hstop hinner hprefix).cases_head with heq | ⟨below, hbelow, -⟩
    · rw [heq]
    · rw [next, hentry] at hbelow
      simp at hbelow
  · intro haddress
    have hsteps : inner.steps = stop.steps := congrArg Address.steps haddress
    rw [← hsteps]
    exact List.prefix_rfl

/-- Under rules with plain names the paths tell the same as the indices. -/
theorem filter_validate_path (hrules : rules.HasPlainFields) (root : Node) (stop : Stop) :
    (root.validate rules).filter (fun violation =>
        decide (stop.address.render.toList <+: violation.path.toList)) =
      (root.validate rules).filter (fun violation =>
        decide (stop.steps <+: violation.location.address.steps)) := by
  refine List.filter_congr fun violation hviolation => ?_
  obtain ⟨inner, -, hviolation⟩ := Node.mem_validate_iff.1 hviolation
  have hstands := standsAt_of_mem_violations hrules hviolation
  obtain ⟨⟨address, place⟩, problem⟩ := violation
  obtain rfl : address = inner.address := hstands.address
  rw [decide_eq_decide]
  exact Location.render_isPrefix_iff hstands.plain

/-- A malformed entry stands in the place of an item that wraps no mapping. -/
theorem exists_item_of_malformed {document : Value} (hroot : Node.ofValue? document = some root)
    (hstop : root.start.LeadsTo stop) (hentry : stop.entry = .malformed) :
    ∃ steps index value items item, stop.steps = steps ++ [index] ∧
      document.descend? steps = some value ∧ value.childItems? = some items ∧
      items[index]? = some item ∧ item.wrapped? = none := by
  cases hstop using Relation.ReflTransGen.casesOn with
  | refl => cases hentry
  | @tail above _ habove hnext =>
    obtain ⟨node, index, entry, hnode, hget, rfl⟩ := mem_next_iff.1 hnext
    obtain ⟨value, hvalue, hconverted⟩ := descend?_of_leadsTo hroot habove hnode
    obtain ⟨items, item, hitems, hitem, hchild⟩ := (Node.getElem?_entries_iff hconverted).1 hget
    exact ⟨above.steps, index, value, items, item, rfl, hvalue, hitems, hitem,
      Child.ofValue_eq_malformed_iff.1 (hchild.trans hentry)⟩

/-! ## §5 From the document to the report -/

/-- What becomes of an item under the `children` of a node: the walk comes to a node in its place
just if it wraps a mapping, and then to the conversion of the mapping; otherwise all that is
reported in its place and below is that the entry is malformed.  Which violations these are can be
told by their indices, and under rules with plain names by their paths as well. -/
structure KeepsItem (rules : RuleSet) (root : Node) (stop : Stop) (node : Node) (index : Nat)
    (item : Value) : Prop where
  walked : (∃ child, root.start.LeadsTo (stop.childOf node index (.node child))) ↔
    ∃ content, item.wrapped? = some content
  converted : ∀ child, root.start.LeadsTo (stop.childOf node index (.node child)) →
    ∃ content, item.wrapped? = some content ∧ Node.ofValue? content = some child
  malformed : item.wrapped? = none →
    (root.validate rules).filter (fun violation =>
        decide (stop.steps ++ [index] <+: violation.location.address.steps)) =
      [Walk.malformedAt (stop.address.child index)]
  paths : item.wrapped? = none → rules.HasPlainFields →
    (root.validate rules).filter (fun violation =>
        decide ((stop.address.child index).render.toList <+: violation.path.toList)) =
      [Walk.malformedAt (stop.address.child index)]

theorem keepsItem {value item : Value} {items : List Value} {node : Node} {index : Nat}
    (hstop : root.start.LeadsTo stop) (hnode : stop.entry = .node node)
    (hvalue : Node.ofValue? value = some node) (hitems : value.childItems? = some items)
    (hitem : items[index]? = some item) : stop.KeepsItem rules root node index item := by
  have hnext : ∀ {entry}, root.start.LeadsTo (stop.childOf node index entry) ↔
      Child.ofValue item = entry := by
    intro entry
    rw [leadsTo_childOf_iff hstop hnode hvalue hitems hitem, eq_comm]
  have hmalformed : item.wrapped? = none →
      (root.validate rules).filter (fun violation =>
          decide (stop.steps ++ [index] <+: violation.location.address.steps)) =
        [Walk.malformedAt (stop.address.child index)] := fun hnone =>
    filter_validate_malformed rules
      (hnext.2 (Child.ofValue_eq_malformed_iff.2 hnone)) rfl
  refine ⟨?_, ?_, hmalformed, ?_⟩
  · rw [← Child.exists_node_iff]
    exact exists_congr fun child => hnext
  · exact fun child hchild => Child.ofValue_eq_node_iff.1 (hnext.1 hchild)
  · intro hnone hrules
    rw [← hmalformed hnone]
    exact filter_validate_path rules hrules root (stop.childOf node index .malformed)

end Stop

/-- **No child entry is lost or shifted.**  A document whose root is a mapping is validated as a
layout.  Each node that the walk of the layout comes to is the conversion of the mapping to which
the same indices lead in the document; where that has a sequence of child entries, the node has as
many, and each item keeps its place.  A malformed entry is reported in the place of an item that
wraps no mapping, and nowhere else. -/
theorem Document.keeps_childItems (rules : RuleSet) {document : Value}
    (h : document.isMapping = true) :
    ∃ root, Node.ofValue? document = some root ∧
      Document.validateValue rules (.ok document) = root.validate rules ∧
      (∀ stop node, root.start.LeadsTo stop → stop.entry = .node node →
        ∃ value, document.descend? stop.steps = some value ∧ Node.ofValue? value = some node ∧
          ∀ items, value.childItems? = some items →
            (∃ entries, node.children? = some entries ∧ entries.length = items.length) ∧
            ∀ index item, items[index]? = some item →
              stop.KeepsItem rules root node index item) ∧
      (∀ violation ∈ root.validate rules, violation.problem = .malformedChildEntry →
        ∃ steps index value items item, document.descend? steps = some value ∧
          value.childItems? = some items ∧ items[index]? = some item ∧ item.wrapped? = none ∧
          violation = Walk.malformedAt (Address.child ⟨"root", steps⟩ index)) ∧
      ∀ (address : Address) (index : Nat), (Walk.malformedAt (address.child index)).path =
        address.render ++ (".children[" ++ toString index ++ "]") := by
  obtain ⟨root, hroot⟩ := Node.exists_ofValue?_iff.2 h
  refine ⟨root, hroot, ?_, ?_, ?_, ?_⟩
  · rw [Document.validateValue, hroot]
  · intro stop node hstop hnode
    obtain ⟨value, hvalue, hconverted⟩ := Stop.descend?_of_leadsTo hroot hstop hnode
    refine ⟨value, hvalue, hconverted, fun items hitems => ⟨?_, fun index item hitem => ?_⟩⟩
    · refine ⟨items.map Child.ofValue, ?_, List.length_map ..⟩
      rw [Node.children?_of_ofValue? hconverted, hitems, Option.map_some]
    · exact Stop.keepsItem rules hstop hnode hconverted hitems hitem
  · intro violation hviolation hproblem
    obtain ⟨stop, hstop, hviolation⟩ := Node.mem_validate_iff.1 hviolation
    obtain ⟨hentry, rfl⟩ := Stop.entry_of_malformedChildEntry hviolation hproblem
    obtain ⟨steps, index, value, items, item, hsteps, hvalue, hitems, hitem, hnone⟩ :=
      Stop.exists_item_of_malformed hroot hstop hentry
    refine ⟨steps, index, value, items, item, hvalue, hitems, hitem, hnone, ?_⟩
    rw [Stop.address, hsteps]
    rfl
  · intro address index
    show (address.child index).render ++ "" = _
    rw [String.append_empty, Address.render_child]
    rfl

/-- A document with three child entries behind a tag: a node, a number, and a tagged node. -/
def Yaml.Value.threeEntries : Value :=
  .tagged "page" (.mapping [(.string "children", .sequence
    [.mapping [(.string "node", .mapping [])],
      .integer 3,
      .tagged "entry" (.mapping [(.string "node", .tagged "empty" (.mapping []))])])])

/-- The number is reported in its place, between the two nodes. -/
theorem Document.keeps_threeEntries :
    Value.threeEntries.isMapping = true ∧
      ∃ root, Node.ofValue? Value.threeEntries = some root ∧
        (∃ child, root.start.LeadsTo (root.start.childOf root 0 (.node child))) ∧
        (root.validate .builtin).filter (fun violation =>
            decide ([1] <+: violation.location.address.steps)) =
          [Walk.malformedAt ⟨"root", [1]⟩] ∧
        ∃ child, root.start.LeadsTo (root.start.childOf root 2 (.node child)) := by
  obtain ⟨root, hroot, -, hwalk, -, -⟩ :=
    @Document.keeps_childItems .builtin Value.threeEntries rfl
  obtain ⟨value, hvalue, -, hitems⟩ := hwalk root.start root .refl rfl
  obtain rfl : Value.threeEntries = value := Option.some.inj hvalue
  obtain ⟨-, hkept⟩ := hitems _ rfl
  refine ⟨rfl, root, hroot, ?_, (hkept 1 _ rfl).malformed rfl, ?_⟩
  · exact (hkept 0 _ rfl).walked.2 ⟨_, rfl⟩
  · exact (hkept 2 _ rfl).walked.2 ⟨_, rfl⟩

end PanelLayout
