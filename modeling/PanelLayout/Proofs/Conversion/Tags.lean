import PanelLayout.Proofs.Conversion.Children
import PanelLayout.Proofs.Findings.Aspects
import PanelLayout.Proofs.Surroundings

/-!
# Tags and the conversion

The conversion of a document looks through tags, wherever they stand on values, and with one
exception it makes nothing of them: a sequence of child entries is one only if no tag stands right on
it.

What a tag could matter for depends on what becomes of its value, so the values of a document have
roles.

* `Yaml.Value.strip` takes the tags off a value and off everything in it, but for the exception.
* `Yaml.Value.Stripped` says that no other tags are left, and `strip_unused_strip` that nothing but
  tags was taken.
* `Node.ofValue?_strip` and its companions, one for each function of the conversion, say that what
  was taken made no difference.

`Document.tags_matter_on_children` adds what the exception comes to.
-/

namespace PanelLayout

open Yaml (Value)

namespace Yaml.Value

/-! ## §1 Roles -/

/-- What becomes of a value in the conversion of a document. -/
inductive Role where
  /-- It is to be a node: as the document, or as what a child entry wraps. -/
  | node
  /-- It is the value of an attribute, and maybe of one that holds child entries. -/
  | attr (asChildren : Bool)
  /-- It is a child entry. -/
  | entry
  /-- Nothing becomes of it. -/
  | unused
  deriving DecidableEq

namespace Role

/-- The role of the items of a sequence. -/
def item : Role → Role
  | attr true => entry
  | attr false => attr false
  | _ => unused

/-- The role of what stands under a key of a mapping. -/
def under (key : Value) : Role → Role
  | node | attr _ => attr (key.keyText = "children")
  | entry => if key.isNodeKey then node else unused
  | unused => unused

/-- The role of a mapping as to the entries behind a key: a child entry wraps one value only. -/
def behind (key : Value) : Role → Role
  | entry => if key.isNodeKey then unused else entry
  | role => role

end Role

/-! ## §2 Taking tags off -/

/-- Is this a sequence that no tag stands on? -/
def isSequence : Value → Bool
  | .sequence _ => true
  | _ => false

/-- Does a tag right on the value matter in this role? -/
def heedsTag (role : Role) (value : Value) : Bool := role = .attr true && value.isSequence

mutual

/-- The value without the tags on it and in it, but for those that matter.  Keys are left as they
are. -/
def strip (role : Role) : Value → Value
  | .sequence items => .sequence (stripItems role.item items)
  | .mapping entries => .mapping (stripEntries role entries)
  | .tagged tag value =>
    if value.heedsTag role then .tagged tag (strip (.attr false) value) else strip role value
  | value => value

def stripItems (role : Role) : List Value → List Value
  | [] => []
  | item :: rest => strip role item :: stripItems role rest

def stripEntries (role : Role) : List (Value × Value) → List (Value × Value)
  | [] => []
  | (key, value) :: rest =>
    (key, strip (role.under key) value) :: stripEntries (role.behind key) rest

end

mutual

/-- There are no tags on the value and in it, but for those that matter. -/
def Stripped (role : Role) : Value → Prop
  | .sequence items => StrippedItems role.item items
  | .mapping entries => StrippedEntries role entries
  | .tagged _ value => value.heedsTag role = true ∧ Stripped (.attr false) value
  | _ => True

def StrippedItems (role : Role) : List Value → Prop
  | [] => True
  | item :: rest => Stripped role item ∧ StrippedItems role rest

def StrippedEntries (role : Role) : List (Value × Value) → Prop
  | [] => True
  | (key, value) :: rest =>
    Stripped (role.under key) value ∧ StrippedEntries (role.behind key) rest

end

theorem isSequence_strip {role : Role} {value : Value} (h : value.isSequence = true) :
    (strip role value).isSequence = true := by
  cases value with
  | sequence items => rfl
  | _ => cases h

mutual

theorem stripped_strip (role : Role) (value : Value) : (strip role value).Stripped role := by
  match value with
  | .null | .boolean _ | .integer _ | .float _ | .string _ => trivial
  | .sequence items =>
    rw [strip, Stripped]
    exact strippedItems_stripItems role.item items
  | .mapping entries =>
    rw [strip, Stripped]
    exact strippedEntries_stripEntries role entries
  | .tagged tag value =>
    rw [strip]
    split
    · rename_i hheeds
      rw [heedsTag, Bool.and_eq_true] at hheeds
      rw [Stripped, heedsTag, Bool.and_eq_true]
      exact ⟨⟨hheeds.1, isSequence_strip hheeds.2⟩, stripped_strip (.attr false) value⟩
    · exact stripped_strip role value

theorem strippedItems_stripItems (role : Role) (items : List Value) :
    StrippedItems role (stripItems role items) := by
  match items with
  | [] => trivial
  | item :: rest => exact ⟨stripped_strip role item, strippedItems_stripItems role rest⟩

theorem strippedEntries_stripEntries (role : Role) (entries : List (Value × Value)) :
    StrippedEntries role (stripEntries role entries) := by
  match entries with
  | [] => trivial
  | (key, value) :: rest =>
    exact ⟨stripped_strip (role.under key) value, strippedEntries_stripEntries (role.behind key) rest⟩

end

mutual

/-- Only tags were taken: when all of them are taken, nothing tells the two apart. -/
theorem strip_unused_strip (role : Role) (value : Value) :
    strip .unused (strip role value) = strip .unused value := by
  match value with
  | .null | .boolean _ | .integer _ | .float _ | .string _ => rfl
  | .sequence items =>
    have hitem : Role.item .unused = .unused := rfl
    rw [strip, strip, strip, hitem, stripItems_unused_stripItems role.item items]
  | .mapping entries =>
    rw [strip, strip, strip, stripEntries_unused_stripEntries role entries]
  | .tagged tag value =>
    have hunused : strip .unused (.tagged tag value) = strip .unused value := rfl
    rw [hunused, strip]
    -- A tag that was left in place the first time is taken now.
    split
    · exact strip_unused_strip (.attr false) value
    · exact strip_unused_strip role value

theorem stripItems_unused_stripItems (role : Role) (items : List Value) :
    stripItems .unused (stripItems role items) = stripItems .unused items := by
  match items with
  | [] => rfl
  | item :: rest =>
    rw [stripItems, stripItems, stripItems, strip_unused_strip role item,
      stripItems_unused_stripItems role rest]

theorem stripEntries_unused_stripEntries (role : Role) (entries : List (Value × Value)) :
    stripEntries .unused (stripEntries role entries) = stripEntries .unused entries := by
  match entries with
  | [] => rfl
  | (key, value) :: rest =>
    rw [stripEntries, stripEntries, stripEntries, Role.under, Role.behind,
      strip_unused_strip (role.under key) value,
      stripEntries_unused_stripEntries (role.behind key) rest]
    exact fun h => nomatch h

end

/-- In an attribute a mapping is a node like any other. -/
theorem stripEntries_attr (asChildren : Bool) (entries : List (Value × Value)) :
    stripEntries (.attr asChildren) entries = stripEntries .node entries := by
  induction entries with
  | nil => rfl
  | cons entry rest ih =>
    rw [stripEntries, stripEntries]
    exact congrArg _ ih

end Yaml.Value

/-! ## §3 The conversion without tags -/

/-- Only for a sequence it matters whether there could be child entries. -/
theorem AttrValue.ofValue_true_of_not_isSequence {value : Value} (h : value.isSequence = false) :
    AttrValue.ofValue true value = AttrValue.ofValue false value := by
  rcases AttrValue.eq_children_or_eq_untagged true value with ⟨entries, hchildren⟩ | heq
  · obtain ⟨-, items, rfl, -⟩ := AttrValue.ofValue_eq_children_iff.1 hchildren
    cases h
  · rw [heq, AttrValue.ofValue_untagged]

mutual

theorem AttrValue.ofValue_strip (asChildren : Bool) (value : Value) :
    AttrValue.ofValue asChildren (value.strip (.attr asChildren)) =
      AttrValue.ofValue asChildren value := by
  match value with
  | .null | .boolean _ | .integer _ | .float _ | .string _ => rfl
  | .sequence items =>
    cases asChildren with
    | false => simp [Value.strip, Value.Role.item, AttrValue.ofValue, AttrValue.ofValues_strip items]
    | true => simp [Value.strip, Value.Role.item, AttrValue.ofValue, Child.ofValues_strip items]
  | .mapping entries =>
    rw [Value.strip, Value.stripEntries_attr, AttrValue.ofValue, AttrValue.ofValue,
      insertEntries_strip [] entries]
  | .tagged tag value =>
    rw [Value.strip]
    split
    · rw [AttrValue.ofValue, AttrValue.ofValue, AttrValue.ofValue_strip false value]
    · rename_i hheeds
      rw [AttrValue.ofValue_strip asChildren value, AttrValue.ofValue]
      -- Without its tag the value is no sequence that could hold child entries.
      cases asChildren with
      | false => rfl
      | true =>
        apply AttrValue.ofValue_true_of_not_isSequence
        simpa [Value.heedsTag] using hheeds

theorem AttrValue.ofValues_strip (items : List Value) :
    AttrValue.ofValues (Value.stripItems (.attr false) items) = AttrValue.ofValues items := by
  match items with
  | [] => rfl
  | item :: rest =>
    rw [Value.stripItems, AttrValue.ofValues, AttrValue.ofValues, AttrValue.ofValue_strip false item,
      AttrValue.ofValues_strip rest]

theorem insertEntries_strip (attributes : List (String × AttrValue))
    (entries : List (Value × Value)) :
    insertEntries attributes (Value.stripEntries .node entries) =
      insertEntries attributes entries := by
  match entries with
  | [] => rfl
  | (key, value) :: rest =>
    have hvalue := AttrValue.ofValue_strip (key.keyText = "children") value
    have hrest := fun attributes => insertEntries_strip attributes rest
    rw [Value.stripEntries, insertEntries, insertEntries]
    show insertEntries (NamedList.set key.keyText (AttrValue.ofValue (key.keyText = "children")
      (value.strip (.attr (key.keyText = "children")))) attributes)
        (Value.stripEntries .node rest) = _
    rw [hvalue, hrest]
    rfl

theorem Node.ofValue?_strip (value : Value) :
    Node.ofValue? (value.strip .node) = Node.ofValue? value := by
  match value with
  | .null | .boolean _ | .integer _ | .float _ | .string _ | .sequence _ => rfl
  | .mapping entries =>
    rw [Value.strip, Node.ofValue?, Node.ofValue?, insertEntries_strip [] entries]
  | .tagged tag value =>
    have hstrip : Value.strip .node (.tagged tag value) = Value.strip .node value := rfl
    rw [hstrip, Node.ofValue?, Node.ofValue?_strip value]

theorem Child.ofValues_strip (items : List Value) :
    Child.ofValues (Value.stripItems .entry items) = Child.ofValues items := by
  match items with
  | [] => rfl
  | item :: rest =>
    rw [Value.stripItems, Child.ofValues, Child.ofValues, Child.ofValue_strip item,
      Child.ofValues_strip rest]

theorem Child.ofValue_strip (value : Value) :
    Child.ofValue (value.strip .entry) = Child.ofValue value := by
  match value with
  | .null | .boolean _ | .integer _ | .float _ | .string _ | .sequence _ => rfl
  | .mapping entries =>
    rw [Value.strip, Child.ofValue, Child.ofValue, Child.ofEntries_strip entries]
  | .tagged tag value =>
    have hstrip : Value.strip .entry (.tagged tag value) = Value.strip .entry value := rfl
    rw [hstrip, Child.ofValue, Child.ofValue_strip value]

theorem Child.ofEntries_strip (entries : List (Value × Value)) :
    Child.ofEntries (Value.stripEntries .entry entries) = Child.ofEntries entries := by
  match entries with
  | [] => rfl
  | (key, value) :: rest =>
    have hnode := Node.ofValue?_strip value
    have hrest := Child.ofEntries_strip rest
    rw [Child.ofEntries_eq, Child.ofEntries_eq] at hrest ⊢
    rw [Value.stripEntries, List.find?_cons, List.find?_cons, Value.Role.under, Value.Role.behind]
    -- The first key `node` decides; what stands behind it is not looked at.
    cases hkey : key.isNodeKey with
    | true => simp [hnode]
    | false => simpa using hrest

end

/-! ## §4 Child entries behind a tag -/

namespace Yaml.Value

/-- The items of a sequence under `children` that a tag stands on. -/
def taggedItems? (value : Value) : Option (List Value) :=
  match value.under? "children" with
  | some (.tagged _ content) =>
    match content.untagged with
    | .sequence items => some items
    | _ => none
  | _ => none

theorem taggedItems?_eq_some_iff {value : Value} {items : List Value} :
    value.taggedItems? = some items ↔
      ∃ tag content, value.under? "children" = some (.tagged tag content) ∧
        content.untagged = .sequence items := by
  unfold taggedItems?
  cases value.under? "children" with
  | none => simp
  | some content =>
    cases content with
    | tagged tag content => cases hcontent : content.untagged <;> simp [hcontent]
    | _ => simp

end Yaml.Value

/-- Behind a tag the items are the values of a plain list. -/
theorem Node.get?_children_of_taggedItems? {value : Value} {node : Node} {items : List Value}
    (h : Node.ofValue? value = some node) (hitems : value.taggedItems? = some items) :
    node.get? "children" = some (.list (items.map (AttrValue.ofValue false))) := by
  obtain ⟨tag, content, hunder, hcontent⟩ := Value.taggedItems?_eq_some_iff.1 hitems
  rw [Node.get?_of_ofValue? h, hunder, Option.map_some, AttrValue.ofValue,
    ← AttrValue.ofValue_untagged, hcontent, AttrValue.ofValue, AttrValue.ofValues_eq_map]
  rfl

namespace Node

variable {node : Node} {items : List AttrValue}

theorem children?_of_get?_list (h : node.get? "children" = some (.list items)) :
    node.children? = none := by
  rw [children?, h]

theorem ofChildren_of_get?_list (rules : RuleSet) (h : node.get? "children" = some (.list items)) :
    Findings.ofChildren rules node =
      [⟨.field "children", .wrongType "array of child nodes" "array"⟩] := by
  rw [Findings.ofChildren, h]
  rfl

end Node

/-- Below a node without child entries there is nothing to walk, and nothing is reported. -/
theorem Stop.filter_validate_of_children?_eq_none (rules : RuleSet) {root node : Node} {stop : Stop}
    (hstop : root.start.LeadsTo stop) (hnode : stop.entry = .node node)
    (h : node.children? = none) :
    (∀ below, stop.LeadsTo below → below = stop) ∧
      (root.validate rules).filter (stop.steps <+: ·.location.address.steps) =
        stop.violations rules := by
  have hnext : stop.next = [] := by
    rw [next, hnode]
    simp [Node.entries, h]
  constructor
  · intro below hbelow
    rcases hbelow.cases_head with heq | ⟨first, hfirst, -⟩
    · exact heq.symm
    · rw [hnext] at hfirst
      cases hfirst
  · rw [filter_validate_below hstop, walk_eq, hnext]
    exact List.append_nil _

/-- **A tag matters only right on the child entries.**  A document has the same layout without its
tags, wherever they stand on values; only the tags right on sequences under `children` have to be
left in place.  Where such a tag stands, the sequence is a plain list: none of its items is walked,
and that the list has the wrong type is all that is found as to the children of the node. -/
theorem Document.tags_matter_on_children (document : Value) :
    (Node.ofValue? (document.strip .node) = Node.ofValue? document ∧
      (document.strip .node).Stripped .node ∧
      (document.strip .node).strip .unused = document.strip .unused) ∧
    ∀ (value : Value) (node : Node) (items : List Value), Node.ofValue? value = some node →
      value.taggedItems? = some items →
      node.get? "children" = some (.list (items.map (AttrValue.ofValue false))) ∧
      (∀ rules, Findings.ofChildren rules node =
        [⟨.field "children", .wrongType "array of child nodes" "array"⟩]) ∧
      ∀ (rules : RuleSet) (root : Node) (stop : Stop), root.start.LeadsTo stop →
        stop.entry = .node node →
        (∀ below, stop.LeadsTo below → below = stop) ∧
        (root.validate rules).filter (stop.steps <+: ·.location.address.steps) =
          stop.violations rules ∧
        ⟨⟨stop.address, .field "children"⟩, .wrongType "array of child nodes" "array"⟩ ∈
          root.validate rules := by
  refine ⟨⟨Node.ofValue?_strip document, Value.stripped_strip .node document,
    Value.strip_unused_strip .node document⟩, fun value node items hvalue hitems => ?_⟩
  have hlist := Node.get?_children_of_taggedItems? hvalue hitems
  have hfound := fun rules => Node.ofChildren_of_get?_list rules hlist
  refine ⟨hlist, hfound, fun rules root stop hstop hnode => ?_⟩
  obtain ⟨hbelow, hfilter⟩ := Stop.filter_validate_of_children?_eq_none rules hstop hnode
    (Node.children?_of_get?_list hlist)
  refine ⟨hbelow, hfilter, (Stop.mem_validate_iff_of_node hstop hnode).2 ?_⟩
  have haspect : Finding.aspect? ⟨.field "children", .wrongType "array of child nodes" "array"⟩ =
      some .children := rfl
  rw [Node.mem_findings_iff_of_aspect haspect, Node.findingsOn, hfound]
  exact List.mem_singleton_self _

/-- A document with tags on itself, on its child entries and in its notes. -/
def Yaml.Value.taggedPage : Value :=
  .tagged "page" (.mapping
    [(.string "children", .tagged "list" (.sequence [.mapping [(.string "node", .mapping [])]])),
      (.string "notes", .sequence [.tagged "draft" (.string "a note")])])

/-- The document keeps the tag on its child entries, which are not walked. -/
theorem Document.tags_matter_on_taggedPage :
    Value.taggedPage.strip .node =
      .mapping
        [(.string "children", .tagged "list" (.sequence [.mapping [(.string "node", .mapping [])]])),
          (.string "notes", .sequence [.string "a note"])] ∧
      Node.ofValue? (Value.taggedPage.strip .node) = Node.ofValue? Value.taggedPage ∧
      Value.taggedPage.taggedItems? = some [.mapping [(.string "node", .mapping [])]] ∧
      ∃ root, Node.ofValue? Value.taggedPage = some root ∧
        (∀ below, root.start.LeadsTo below → below = root.start) ∧
        ⟨⟨.root, .field "children"⟩, .wrongType "array of child nodes" "array"⟩ ∈
          root.validate .builtin := by
  obtain ⟨⟨hsame, -, -⟩, htagged⟩ := Document.tags_matter_on_children Value.taggedPage
  obtain ⟨root, hroot⟩ := Node.exists_ofValue?_iff.2 (show Value.taggedPage.isMapping = true by rfl)
  obtain ⟨-, -, hreport⟩ := htagged Value.taggedPage root _ hroot rfl
  obtain ⟨hbelow, -, hwrong⟩ := hreport .builtin root root.start .refl rfl
  exact ⟨rfl, hsame, rfl, root, hroot, hbelow, hwrong⟩

end PanelLayout
