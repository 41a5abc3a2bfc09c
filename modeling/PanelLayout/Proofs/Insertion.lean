import PanelLayout.Node.Basic
import PanelLayout.Proofs.Rules.Tables

/-!
# Nodes as maps in the order of insertion

A node comes about by inserting attributes one after the other, and a name may be inserted any
number of times.  Such a node reads as a map in which the last value of a name counts, and lists its
names in the order in which they first came.

* `Node.attributes_ofList` runs the insertions on the list of attributes; `Node.get?_ofList` and
  `Node.names_ofList` say what is read and what is listed behind them.
* `Node.ofList_attributes` inserts the attributes that a node lists, and has the node again.
* `Node.Records` is what a node tells of the insertions that make it, and `Node.records_iff` says
  that no other node tells it.
-/

namespace PanelLayout.Node

variable {node other : Node} {given : List (String × AttrValue)} {name : String}

/-! ## §1 Reading and inserting -/

theorem contains_iff_mem_names :
    node.contains name ↔ name ∈ NamedList.names node.attributes :=
  NamedList.isSome_lookup_iff

theorem get?_insert (node : Node) (name other : String) (value : AttrValue) :
    (node.insert name value).get? other = if other = name then some value else node.get? other :=
  NamedList.lookup_set name other value node.attributes

/-- Nodes that list the same names in the same order and read the same are equal. -/
theorem eq_of_get? (hnodup : (NamedList.names node.attributes).Nodup)
    (hnames : NamedList.names node.attributes = NamedList.names other.attributes)
    (hget : ∀ name, node.get? name = other.get? name) : node = other := by
  cases node
  cases other
  exact congrArg Node.mk (NamedList.eq_of_lookup hnodup hnames hget)

/-! ## §2 Runs of insertions -/

/-- Insertions into a node give the names of its list their values, one after the other. -/
theorem attributes_foldl_insert (node : Node) (given : List (String × AttrValue)) :
    (given.foldl (fun node (name, value) => node.insert name value) node).attributes =
      NamedList.setAll node.attributes given := by
  induction given generalizing node with
  | nil => rfl
  | cons head rest ih =>
    rw [List.foldl_cons, ih]
    rfl

theorem attributes_ofList (given : List (String × AttrValue)) :
    (ofList given).attributes = NamedList.setAll [] given :=
  attributes_foldl_insert empty given

/-- A name has the value that was inserted last. -/
theorem get?_ofList (given : List (String × AttrValue)) (name : String) :
    (ofList given).get? name = given.reverse.lookup name := by
  rw [get?, attributes_ofList, NamedList.lookup_setAll_reverse, List.lookup_nil, Option.or_none]

/-- The names come in the order in which they were first inserted. -/
theorem names_ofList (given : List (String × AttrValue)) :
    NamedList.names (ofList given).attributes = (NamedList.names given).eraseDups := by
  rw [attributes_ofList, NamedList.names_setAll_eraseDups]
  simp [NamedList.names, List.removeAll]

theorem mem_names_ofList :
    name ∈ NamedList.names (ofList given).attributes ↔ name ∈ NamedList.names given := by
  rw [names_ofList, List.mem_eraseDups]

theorem nodup_names_ofList (given : List (String × AttrValue)) :
    (NamedList.names (ofList given).attributes).Nodup := by
  rw [attributes_ofList]
  exact NamedList.nodup_names_setAll List.nodup_nil

/-- Where each name stands once, the attributes make the node when they are inserted as listed. -/
theorem ofList_attributes (h : (NamedList.names node.attributes).Nodup) :
    ofList node.attributes = node := by
  refine eq_of_get? (nodup_names_ofList _) ?_ fun name => ?_
  · rw [names_ofList, NamedList.eraseDups_of_nodup h]
  · -- No name comes twice, so its last value is its only one.
    rw [get?_ofList, get?, NamedList.lookup_eq_of_perm h (List.reverse_perm _).symm]

/-! ## §3 What a node tells of its insertions -/

/-- What a node tells of the insertions that make it: each name that was inserted stands once, the
names come in the order in which they were first inserted, and each has the value that was inserted
last. -/
structure Records (node : Node) (given : List (String × AttrValue)) : Prop where
  distinct : (NamedList.names node.attributes).Nodup
  ordered : NamedList.names node.attributes = (NamedList.names given).eraseDups
  listed : ∀ name value, (name, value) ∈ node.attributes ↔ node.get? name = some value
  latest : ∀ name value, node.get? name = some value ↔
    ∃ before after, given = before ++ (name, value) :: after ∧ name ∉ NamedList.names after
  absent : ∀ name, node.get? name = none ↔ name ∉ NamedList.names given
  contained : ∀ name, node.contains name = true ↔ name ∈ NamedList.names given

theorem records_ofList (given : List (String × AttrValue)) : (ofList given).Records given where
  distinct := nodup_names_ofList given
  ordered := names_ofList given
  listed := fun _ _ => NamedList.mem_iff_lookup (nodup_names_ofList given)
  latest := fun _ _ => by rw [get?_ofList, NamedList.lookup_reverse_eq_some_iff]
  absent := fun _ => by rw [get?, NamedList.lookup_eq_none_iff, mem_names_ofList]
  contained := fun _ => by rw [contains_iff_mem_names, mem_names_ofList]

/-- The names in their order and the last values leave no choice. -/
theorem Records.eq_ofList (h : node.Records given) : node = ofList given := by
  have hgiven := records_ofList given
  refine eq_of_get? h.distinct (h.ordered.trans hgiven.ordered.symm) fun name => ?_
  exact Option.ext fun value => (h.latest name value).trans (hgiven.latest name value).symm

theorem records_iff : node.Records given ↔ node = ofList given :=
  ⟨Records.eq_ofList, fun h => h ▸ records_ofList given⟩

/-- **A node is a map in the order of insertion.**  Whatever attributes are inserted into the empty
node, each name stands once among the attributes, the names come in the order in which they were
first inserted, and a name has the value that it was given last; a name that was never inserted is
absent.  No other node tells all this.  One more insertion neither gives another name a new value
nor moves it to another place.  Hence the attributes that the node lists, inserted into the empty
node, make the same node. -/
theorem records_insertions (given : List (String × AttrValue)) :
    (∀ node : Node, node.Records given ↔ node = ofList given) ∧
    (∀ (name other : String) (value : AttrValue), other ≠ name →
      ((ofList given).insert name value).get? other = (ofList given).get? other ∧
      ∀ (i : Nat) (content : AttrValue),
        ((ofList given).insert name value).attributes[i]? = some (other, content) ↔
          (ofList given).attributes[i]? = some (other, content)) ∧
    ofList (ofList given).attributes = ofList given := by
  refine ⟨fun node => records_iff, fun name other value hne => ⟨?_, fun i content => ?_⟩, ?_⟩
  · rw [get?_insert, if_neg hne]
  · exact NamedList.getElem?_set_iff hne value content (ofList given).attributes i
  · exact ofList_attributes (nodup_names_ofList given)

/-- Insertions that give a type twice, with an id in between. -/
def twiceTyped : List (String × AttrValue) :=
  [("type", .text "text"), ("id", .text "title"), ("type", .text "icon")]

/-- The second type stands in the place of the first, and a third one leaves the id where it is. -/
theorem records_twiceTyped :
    ofList twiceTyped = ⟨[("type", .text "icon"), ("id", .text "title")]⟩ ∧
      (ofList twiceTyped).Records twiceTyped ∧ "id" ≠ "type" ∧
      ((ofList twiceTyped).insert "type" (.text "line")).get? "id" = some (.text "title") ∧
      ((ofList twiceTyped).insert "type" (.text "line")).attributes[1]? =
        some ("id", .text "title") ∧
      ofList (ofList twiceTyped).attributes = ofList twiceTyped := by
  obtain ⟨hrecords, hother, hagain⟩ := records_insertions twiceTyped
  have hne : "id" ≠ "type" := by decide
  obtain ⟨hget, hplace⟩ := hother "type" "id" (.text "line") hne
  exact ⟨rfl, (hrecords _).2 rfl, hne, hget.trans rfl, (hplace 1 _).2 rfl, hagain⟩

end PanelLayout.Node
