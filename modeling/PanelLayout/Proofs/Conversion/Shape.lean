import PanelLayout.Proofs.Conversion.Children

/-!
# The shape of converted nodes

Every checker looks the attributes of a node up by their names, and takes for granted that a name
stands for one attribute and that child entries are found under `children` only.  Of the nodes that
the conversion of a document gives this is true, however deep they stand.

* `Yaml.Value.Occurs`, `AttrValue.Occurs` and `Node.Encloses` say what stands in a document, in the
  value of an attribute and in a node.
* `AttrValue.occurs_ofValue` takes the parts of a converted value back to the document, and
  `Node.exists_occurs_of_encloses` the nodes.
* `Node.Mirrors` says what a node has to do with the mapping that it is the conversion of.
-/

namespace PanelLayout

open Yaml (Value)

/-! ## §1 Parts -/

/-- The part is the value, or stands in it behind a tag, among the items or under a key. -/
inductive Yaml.Value.Occurs (part : Value) : Value → Prop where
  | here : Occurs part part
  | tagged {tag : String} {value : Value} (inside : Occurs part value) :
      Occurs part (.tagged tag value)
  | item {items : List Value} {item : Value} (member : item ∈ items) (inside : Occurs part item) :
      Occurs part (.sequence items)
  | entry {entries : List (Value × Value)} {key value : Value} (member : (key, value) ∈ entries)
      (inside : Occurs part value) : Occurs part (.mapping entries)

/-- The part is the value, or stands in it with nothing but lists around it. -/
inductive AttrValue.Occurs (part : AttrValue) : AttrValue → Prop where
  | here : Occurs part part
  | item {items : List AttrValue} {item : AttrValue} (member : item ∈ items)
      (inside : Occurs part item) : Occurs part (.list items)

/-- The value holds the node: as a mapping or as a child entry, with at most lists around it. -/
def AttrValue.Holds (value : AttrValue) (node : Node) : Prop :=
  AttrValue.Occurs (.map node) value ∨
    ∃ entries, AttrValue.Occurs (.children entries) value ∧ .node node ∈ entries

/-- The inner node is the outer one, or stands anywhere in it. -/
def Node.Encloses : Node → Node → Prop :=
  Relation.ReflTransGen fun outer inner => ∃ entry ∈ outer.attributes, entry.2.Holds inner

namespace Yaml.Value

variable {part value whole : Value}

theorem Occurs.trans (inner : Occurs part value) (outer : Occurs value whole) :
    Occurs part whole := by
  induction outer with
  | here => exact inner
  | tagged _ ih => exact .tagged ih
  | item member _ ih => exact .item member ih
  | entry member _ ih => exact .entry member ih

theorem Occurs.of_untagged (h : Occurs part value.untagged) : Occurs part value := by
  fun_induction untagged value with
  | case1 tag value ih => exact .tagged (ih h)
  | case2 value hvalue => exact h

theorem occurs_of_under? {name : String} (h : value.under? name = some part) :
    Occurs part value := by
  apply Occurs.of_untagged
  unfold under? at h
  split at h
  · rename_i entries hentries
    obtain ⟨⟨key, content⟩, hentry, rfl⟩ := Option.map_eq_some_iff.1 h
    have hmember := List.mem_reverse.1 (List.mem_of_find?_eq_some hentry)
    rw [hentries]
    exact .entry hmember .here
  · cases h

theorem occurs_of_wrapped? (h : value.wrapped? = some part) : Occurs part value := by
  have hnode := (wrapped?_eq_some_iff.1 h).1
  apply Occurs.of_untagged
  unfold atNodeKey? at hnode
  split at hnode
  · rename_i entries hentries
    obtain ⟨⟨key, content⟩, hentry, rfl⟩ := Option.map_eq_some_iff.1 hnode
    rw [hentries]
    exact .entry (List.mem_of_find?_eq_some hentry) .here
  · cases hnode

end Yaml.Value

/-! ## §2 Converted values -/

namespace AttrValue

/-- A value is converted to the node that it is, or to none. -/
theorem ofValue_eq_map_iff {asChildren : Bool} {value : Value} {node : Node} :
    AttrValue.ofValue asChildren value = .map node ↔ Node.ofValue? value = some node := by
  rcases eq_children_or_eq_untagged asChildren value with ⟨entries, hchildren⟩ | heq
  · obtain ⟨-, items, rfl, -⟩ := ofValue_eq_children_iff.1 hchildren
    simp [hchildren, Node.ofValue?]
  · rw [heq, ← Node.ofValue?_untagged]
    cases huntagged : value.untagged with
    | tagged tag inner => exact absurd huntagged (value.untagged_ne_tagged tag inner)
    | _ => simp [AttrValue.ofValue, Node.ofValue?]

/-- The items of a converted list are the converted items of a sequence. -/
theorem exists_sequence_of_ofValue_eq_list {asChildren : Bool} {value : Value}
    {items : List AttrValue} (h : AttrValue.ofValue asChildren value = .list items) :
    ∃ contents, value.untagged = .sequence contents ∧
      items = contents.map (AttrValue.ofValue false) := by
  rcases eq_children_or_eq_untagged asChildren value with ⟨entries, hchildren⟩ | heq
  · rw [hchildren] at h
    cases h
  · rw [heq] at h
    cases huntagged : value.untagged with
    | tagged tag inner => exact absurd huntagged (value.untagged_ne_tagged tag inner)
    | sequence contents =>
      rw [huntagged, AttrValue.ofValue] at h
      refine ⟨contents, rfl, ?_⟩
      rw [← AttrValue.ofValues_eq_map]
      exact (AttrValue.list.inj h).symm
    | _ => simp [huntagged, AttrValue.ofValue] at h

/-- A part of a converted value is all of it, or the conversion of a part. -/
theorem occurs_ofValue {asChildren : Bool} {value : Value} {part : AttrValue}
    (h : AttrValue.Occurs part (AttrValue.ofValue asChildren value)) :
    part = AttrValue.ofValue asChildren value ∨
      ∃ content, Value.Occurs content value ∧ part = AttrValue.ofValue false content := by
  -- The items of a converted list are converted values again, so the whole is left open.
  generalize hwhole : AttrValue.ofValue asChildren value = whole at h
  induction h generalizing asChildren value with
  | here => exact .inl rfl
  | @item items item member inside ih =>
    obtain ⟨contents, hcontents, rfl⟩ := exists_sequence_of_ofValue_eq_list hwhole
    obtain ⟨content, hcontent, rfl⟩ := List.mem_map.1 member
    have hvalue : ∀ {inner}, Value.Occurs inner content → Value.Occurs inner value := by
      intro inner hinner
      apply Value.Occurs.of_untagged
      rw [hcontents]
      exact .item hcontent hinner
    rcases ih rfl with rfl | ⟨inner, hinner, rfl⟩
    · exact .inr ⟨content, hvalue .here, rfl⟩
    · exact .inr ⟨inner, hvalue hinner, rfl⟩

/-- Child entries are the whole of a value. -/
theorem eq_of_occurs_children {asChildren : Bool} {value : Value} {entries : List Child}
    (h : AttrValue.Occurs (.children entries) (AttrValue.ofValue asChildren value)) :
    asChildren = true ∧ AttrValue.ofValue asChildren value = .children entries := by
  rcases occurs_ofValue h with heq | ⟨content, -, heq⟩
  · exact ⟨(ofValue_eq_children_iff.1 heq.symm).1, heq.symm⟩
  · exact absurd heq.symm (ofValue_false_ne_children content entries)

/-- The nodes in a converted value are the conversions of mappings in the value. -/
theorem exists_occurs_of_holds {asChildren : Bool} {value : Value} {node : Node}
    (h : (AttrValue.ofValue asChildren value).Holds node) :
    ∃ content, Value.Occurs content value ∧ Node.ofValue? content = some node := by
  rcases h with hmap | ⟨entries, hentries, hmember⟩
  · rcases occurs_ofValue hmap with heq | ⟨content, hcontent, heq⟩
    · exact ⟨value, .here, ofValue_eq_map_iff.1 heq.symm⟩
    · exact ⟨content, hcontent, ofValue_eq_map_iff.1 heq.symm⟩
  · obtain ⟨-, heq⟩ := eq_of_occurs_children hentries
    obtain ⟨-, items, rfl, rfl⟩ := ofValue_eq_children_iff.1 heq
    obtain ⟨item, hitem, hchild⟩ := List.mem_map.1 hmember
    obtain ⟨content, hwrapped, hcontent⟩ := Child.ofValue_eq_node_iff.1 hchild
    exact ⟨content, .item hitem (Value.occurs_of_wrapped? hwrapped), hcontent⟩

end AttrValue

/-! ## §3 Nodes and their mappings -/

namespace Yaml.Value

/-- The keys of a mapping, in order. -/
def keys (value : Value) : List Value :=
  match value.untagged with
  | .mapping entries => entries.map (·.1)
  | _ => []

end Yaml.Value

/-- What a node has to do with the mapping that it is the conversion of: its names are the texts of
the keys, each where it comes first, and an attribute is the conversion of what stands last under
its name.  Child entries are the whole value of an attribute named `children`, and a mapping
becomes a node. -/
structure Node.Mirrors (node : Node) (value : Value) : Prop where
  converted : Node.ofValue? value = some node
  distinct : (NamedList.names node.attributes).Nodup
  ordered : NamedList.names node.attributes = (value.keys.map Value.keyText).eraseDups
  latest : ∀ name,
    node.get? name = (value.under? name).map (AttrValue.ofValue (name = "children"))
  children : ∀ name attr, (name, attr) ∈ node.attributes →
    ∀ entries, AttrValue.Occurs (.children entries) attr →
      name = "children" ∧ attr = .children entries
  mappings : ∀ name content, value.under? name = some content → content.isMapping = true →
    ∃ inner, Node.ofValue? content = some inner ∧ node.get? name = some (.map inner)

namespace Node

variable {value : Value} {node : Node}

theorem nodup_names_of_ofValue? (h : Node.ofValue? value = some node) :
    (NamedList.names node.attributes).Nodup := by
  obtain ⟨entries, -, rfl⟩ := ofValue?_eq_some_iff.1 h
  rw [mk_insertEntries]
  exact nodup_names_ofList _

theorem names_of_ofValue? (h : Node.ofValue? value = some node) :
    NamedList.names node.attributes = (value.keys.map Value.keyText).eraseDups := by
  obtain ⟨entries, huntagged, rfl⟩ := ofValue?_eq_some_iff.1 h
  have hnames : NamedList.names (entries.map Value.attributeOf) =
      (entries.map (·.1)).map Value.keyText := by
    rw [NamedList.names, List.map_map, List.map_map]
    rfl
  rw [mk_insertEntries, names_ofList, hnames, Value.keys, huntagged]

/-- An attribute of a converted node is the conversion of what stands under its name. -/
theorem exists_under?_of_mem (h : Node.ofValue? value = some node) {name : String}
    {attr : AttrValue} (hmem : (name, attr) ∈ node.attributes) :
    ∃ content, value.under? name = some content ∧
      attr = AttrValue.ofValue (name = "children") content := by
  have hget : node.get? name = some attr :=
    NamedList.lookup_of_mem (nodup_names_of_ofValue? h) hmem
  rw [get?_of_ofValue? h, Option.map_eq_some_iff] at hget
  obtain ⟨content, hunder, hcontent⟩ := hget
  exact ⟨content, hunder, hcontent.symm⟩

theorem mirrors_of_ofValue? (h : Node.ofValue? value = some node) : node.Mirrors value where
  converted := h
  distinct := nodup_names_of_ofValue? h
  ordered := names_of_ofValue? h
  latest := get?_of_ofValue? h
  children := by
    intro name attr hmem entries hentries
    obtain ⟨content, -, rfl⟩ := exists_under?_of_mem h hmem
    obtain ⟨hname, heq⟩ := AttrValue.eq_of_occurs_children hentries
    exact ⟨of_decide_eq_true hname, heq⟩
  mappings := by
    intro name content hunder hmapping
    obtain ⟨inner, hinner⟩ := exists_ofValue?_iff.2 hmapping
    refine ⟨inner, hinner, ?_⟩
    rw [get?_of_ofValue? h, hunder, Option.map_some, AttrValue.ofValue_eq_map_iff.2 hinner]

/-- A node anywhere in a converted document is the conversion of a mapping there. -/
theorem exists_occurs_of_encloses {document : Value} {root : Node}
    (hroot : Node.ofValue? document = some root) (h : root.Encloses node) :
    ∃ value, Value.Occurs value document ∧ Node.ofValue? value = some node := by
  induction h with
  | refl => exact ⟨document, .here, hroot⟩
  | tail _ hstep ih =>
    -- The node stands in an attribute, and that is the conversion of a part of the document.
    obtain ⟨value, hvalue, hconverted⟩ := ih
    obtain ⟨⟨name, attr⟩, hmem, hholds⟩ := hstep
    obtain ⟨content, hunder, rfl⟩ := exists_under?_of_mem hconverted hmem
    obtain ⟨inner, hinner, hnode⟩ := AttrValue.exists_occurs_of_holds hholds
    exact ⟨inner, (hinner.trans (Value.occurs_of_under? hunder)).trans hvalue, hnode⟩

end Node

/-- **Every node of a layout mirrors a mapping of the document.**  A document is converted just if
it is a mapping, behind whatever tags.  Each node that then stands anywhere in the layout, as the
layout itself, as a child, as the value of an attribute or in lists, is the conversion of a mapping
that stands in the document: no name stands twice in it, the names come in the order in which the
keys first have them as their texts, and each attribute is the conversion of what stands last under
its name.  Child entries stand under `children` only.  And what becomes a node in the value of an
attribute is just what would be converted as a document. -/
theorem Document.mirrors (document : Value) :
    ((∃ root, Node.ofValue? document = some root) ↔ document.isMapping = true) ∧
    (∀ root node, Node.ofValue? document = some root → root.Encloses node →
      ∃ value, Value.Occurs value document ∧ node.Mirrors value) ∧
    ∀ asChildren node,
      AttrValue.ofValue asChildren document = .map node ↔ Node.ofValue? document = some node := by
  refine ⟨Node.exists_ofValue?_iff, ?_, fun asChildren node => AttrValue.ofValue_eq_map_iff⟩
  intro root node hroot hnode
  obtain ⟨value, hvalue, hconverted⟩ := Node.exists_occurs_of_encloses hroot hnode
  exact ⟨value, hvalue, Node.mirrors_of_ofValue? hconverted⟩

/-- A document with two keys that have one text, and with a mapping in a list. -/
def Yaml.Value.twoOnes : Value :=
  .tagged "page" (.mapping
    [(.integer 1, .null), (.string "list", .sequence [.mapping [(.null, .null)]]),
      (.string "1", .boolean true)])

/-- Its layout: the second of the two keys gives the value, in the place of the first. -/
def Node.twoOnes : Node := ⟨[("1", .bool true), ("list", .list [.map ⟨[("", .null)]⟩])]⟩

/-- The layout mirrors its document, and so does the mapping in the list. -/
theorem Document.mirrors_twoOnes :
    Node.ofValue? Value.twoOnes = some Node.twoOnes ∧
      (∃ value, Value.Occurs value Value.twoOnes ∧ Node.twoOnes.Mirrors value) ∧
      Node.twoOnes.Encloses ⟨[("", .null)]⟩ ∧
      ∃ value, Value.Occurs value Value.twoOnes ∧ Node.Mirrors ⟨[("", .null)]⟩ value := by
  obtain ⟨-, hmirrors, -⟩ := Document.mirrors Value.twoOnes
  have hroot : Node.ofValue? Value.twoOnes = some Node.twoOnes := rfl
  have hinner : Node.twoOnes.Encloses ⟨[("", .null)]⟩ :=
    .single ⟨("list", .list [.map ⟨[("", .null)]⟩]), by simp [Node.twoOnes],
      .inl (.item (List.mem_singleton_self _) .here)⟩
  exact ⟨hroot, hmirrors _ _ hroot .refl, hinner, hmirrors _ _ hroot hinner⟩

end PanelLayout
