import Mathlib.Data.List.Nodup
import Mathlib.Logic.Relation
import PanelLayout.Walk

/-!
# The stops of the walk

The walk over a layout stops at nodes and at malformed child entries.  A `Stop` is what the walk
knows when it arrives: the indices that led there, the node above, and the entry found.

Two descriptions of where the walk comes are set side by side.

* `Stop.LeadsTo` is a relation: from a stop one goes on to the child entries of its node.
* `Stop.preorder` is a list: a stop, and behind it everything below each of its child entries.

`mem_preorder_iff` says that they name the same stops, and `preorder_steps_sorted` that the list
ascends in the lexicographic order of the indices, so that it names each stop once.
-/

namespace PanelLayout

/-! ## §1 Child entries -/

namespace Node

/-- The child entries of a node; there are none if its `children` are no list of entries. -/
def entries (node : Node) : List Child := node.children?.getD []

theorem children?_eq_some_iff {node : Node} {entries : List Child} :
    node.children? = some entries ↔ node.get? "children" = some (.children entries) := by
  unfold children?
  split
  · rename_i found hget
    simp [hget]
  · rename_i hother
    simpa using hother entries

theorem mem_entries_iff {node : Node} {entry : Child} :
    entry ∈ node.entries ↔
      ∃ entries, node.get? "children" = some (.children entries) ∧ entry ∈ entries := by
  simp only [← children?_eq_some_iff, entries]
  cases node.children? <;> simp

theorem sizeOf_lt_of_mem_entries {node : Node} {entry : Child} (h : entry ∈ node.entries) :
    sizeOf entry < sizeOf (Child.node node) := by
  obtain ⟨entries, hget, hentry⟩ := mem_entries_iff.1 h
  have hmem : ("children", AttrValue.children entries) ∈ node.attributes :=
    NamedList.mem_of_lookup hget
  -- The entry is a part of the list, the list of a value, and the value of the attributes.
  have hentries : sizeOf entry < sizeOf entries := List.sizeOf_lt_of_mem hentry
  have hattributes := List.sizeOf_lt_of_mem hmem
  cases node with
  | mk attributes =>
    simp only [Prod.mk.sizeOf_spec, AttrValue.children.sizeOf_spec] at hattributes
    simp only [Child.node.sizeOf_spec, Node.mk.sizeOf_spec]
    omega

end Node

/-! ## §2 Stops -/

/-- A stop of the walk: the indices that lead there from the root, the node that it is a child
entry of, and the entry itself. -/
structure Stop where
  steps : List Nat
  parent : Option Node
  entry : Child

/-- The stop at which the walk over a layout begins. -/
def Node.start (root : Node) : Stop := ⟨[], none, .node root⟩

namespace Stop

def address (stop : Stop) : Address := { Address.root with steps := stop.steps }

/-- The depth of a stop; the root stands at depth one. -/
def depth (stop : Stop) : Nat := stop.steps.length + 1

/-- The stop at the child entry `index` of a node. -/
def childOf (stop : Stop) (node : Node) (index : Nat) (entry : Child) : Stop :=
  ⟨stop.steps ++ [index], some node, entry⟩

/-- The stops right below a stop, in order. -/
def next (stop : Stop) : List Stop :=
  match stop.entry with
  | .node node => node.entries.zipIdx.map fun (entry, index) => stop.childOf node index entry
  | .malformed => []

/-- One goes on from a node to one of its child entries, and from a malformed entry nowhere. -/
theorem mem_next_iff {stop below : Stop} :
    below ∈ stop.next ↔
      ∃ node index entry, stop.entry = .node node ∧ node.entries[index]? = some entry ∧
        below = stop.childOf node index entry := by
  unfold next
  cases hentry : stop.entry with
  | malformed => simp
  | node node =>
    simp only [List.mem_map, Prod.exists, List.mem_zipIdx_iff_getElem?]
    constructor
    · rintro ⟨entry, index, hget, rfl⟩
      exact ⟨node, index, entry, rfl, hget, rfl⟩
    · rintro ⟨_, index, entry, ⟨⟩, hget, rfl⟩
      exact ⟨entry, index, hget, rfl⟩

/-- What is collected at the stops right below a node is collected at its child entries. -/
theorem flatMap_next {α : Type} {stop : Stop} {node : Node} (hnode : stop.entry = .node node)
    (f : Stop → List α) :
    stop.next.flatMap f =
      node.entries.zipIdx.flatMap fun (entry, index) => f (stop.childOf node index entry) := by
  unfold next
  rw [hnode, List.flatMap_map]

theorem sizeOf_entry_lt_of_mem_next {stop below : Stop} (h : below ∈ stop.next) :
    sizeOf below.entry < sizeOf stop.entry := by
  obtain ⟨node, index, entry, hentry, hget, rfl⟩ := mem_next_iff.1 h
  rw [hentry]
  exact Node.sizeOf_lt_of_mem_entries (List.mem_of_getElem? hget)

/-- From a stop the walk comes to another, in no step or in some. -/
def LeadsTo : Stop → Stop → Prop := Relation.ReflTransGen fun stop below => below ∈ stop.next

/-- A stop and all stops below it, in the order in which the walk comes to them. -/
def preorder (stop : Stop) : List Stop :=
  stop :: stop.next.attach.flatMap fun ⟨below, _⟩ => below.preorder
termination_by sizeOf stop.entry
decreasing_by exact sizeOf_entry_lt_of_mem_next ‹_›

theorem preorder_eq (stop : Stop) : stop.preorder = stop :: stop.next.flatMap preorder := by
  rw [preorder, List.flatMap_subtype (fun _ _ => rfl), List.unattach_attach]

/-- What holds of a stop once it holds of all stops right below it holds of every stop. -/
theorem inductionOn {motive : Stop → Prop} (stop : Stop)
    (step : ∀ stop : Stop, (∀ below ∈ stop.next, motive below) → motive stop) : motive stop :=
  step stop fun below _ => inductionOn below step
termination_by sizeOf stop.entry
decreasing_by exact sizeOf_entry_lt_of_mem_next ‹_›

/-! ## §3 The list and the relation -/

/-- The list names exactly the stops that the walk comes to. -/
theorem mem_preorder_iff {start stop : Stop} : stop ∈ start.preorder ↔ start.LeadsTo stop := by
  constructor
  · -- Downwards from the start, by what stands right below it.
    intro h
    induction start using inductionOn with
    | step start ih =>
      rw [preorder_eq] at h
      rcases List.mem_cons.1 h with rfl | h
      · exact .refl
      · obtain ⟨below, hbelow, hstop⟩ := List.mem_flatMap.1 h
        exact (ih below hbelow hstop).head hbelow
  · -- Along the way to the stop, whose first step is to one of the lists that are joined.
    intro h
    induction h using Relation.ReflTransGen.head_induction_on with
    | refl =>
      rw [preorder_eq]
      exact List.mem_cons_self ..
    | head hbelow _ ih =>
      rw [preorder_eq]
      exact List.mem_cons_of_mem _ (List.mem_flatMap.2 ⟨_, hbelow, ih⟩)

theorem isPrefix_of_leadsTo {start stop : Stop} (h : start.LeadsTo stop) :
    start.steps <+: stop.steps := by
  induction h with
  | refl => exact List.prefix_rfl
  | tail _ hnext ih =>
    obtain ⟨node, index, entry, -, -, rfl⟩ := mem_next_iff.1 hnext
    exact ih.trans (List.prefix_append ..)

/-! ## §4 The order of the list -/

/-- The child entries of a node are passed in the order of their indices. -/
theorem next_ascending (stop : Stop) :
    stop.next.Pairwise fun a b =>
      ∃ i j, i < j ∧ a.steps = stop.steps ++ [i] ∧ b.steps = stop.steps ++ [j] := by
  unfold next
  cases stop.entry with
  | malformed => exact .nil
  | node node =>
    rw [List.pairwise_iff_getElem]
    intro i j hi hj hij
    refine ⟨i, j, hij, ?_, ?_⟩ <;> simp [childOf]

/-- The stops are listed in the lexicographic order of their indices, a node before everything
below it; in particular no two have the same indices. -/
theorem preorder_steps_sorted (start : Stop) : (start.preorder.map steps).Pairwise (· < ·) := by
  rw [List.pairwise_map]
  induction start using inductionOn with
  | step start ih =>
    rw [preorder_eq, List.pairwise_cons, List.pairwise_flatMap]
    refine ⟨?_, ih, ?_⟩
    · -- The stop itself comes first, since its indices begin all others.
      intro stop hstop
      obtain ⟨below, hbelow, hstop⟩ := List.mem_flatMap.1 hstop
      obtain ⟨node, index, entry, -, -, rfl⟩ := mem_next_iff.1 hbelow
      obtain ⟨rest, hrest⟩ := isPrefix_of_leadsTo (mem_preorder_iff.1 hstop)
      have hlt : start.steps ++ [] < start.steps ++ index :: rest :=
        List.append_left_lt (List.nil_lt_cons index rest)
      rw [← hrest, childOf, List.append_assoc]
      simpa using hlt
    · -- Below different child entries the indices of these decide.
      refine (next_ascending start).imp ?_
      rintro a b ⟨i, j, hij, ha, hb⟩ stop hstop other hother
      obtain ⟨rest, hrest⟩ := isPrefix_of_leadsTo (mem_preorder_iff.1 hstop)
      obtain ⟨rest', hrest'⟩ := isPrefix_of_leadsTo (mem_preorder_iff.1 hother)
      rw [← hrest, ← hrest', ha, hb, List.append_assoc, List.append_assoc]
      exact List.append_left_lt (List.cons_lt_cons_iff.2 (.inl hij))

theorem nodup_preorder_steps (start : Stop) : (start.preorder.map steps).Nodup :=
  (preorder_steps_sorted start).imp fun {a b} (h : a < b) (heq : a = b) =>
    List.lt_irrefl b (heq ▸ h)

/-- The indices lead to one stop only. -/
theorem eq_of_steps_eq {start a b : Stop} (ha : start.LeadsTo a) (hb : start.LeadsTo b)
    (h : a.steps = b.steps) : a = b :=
  List.inj_on_of_nodup_map (nodup_preorder_steps start) (mem_preorder_iff.2 ha)
    (mem_preorder_iff.2 hb) h

/-! ## §5 The stops below one stop -/

/-- A stop lies below another as soon as its indices begin with those of the other. -/
theorem leadsTo_of_isPrefix {start outer inner : Stop} (houter : start.LeadsTo outer)
    (hinner : start.LeadsTo inner) (h : outer.steps <+: inner.steps) : outer.LeadsTo inner := by
  induction hinner with
  | refl =>
    -- The start has the fewest indices, so the two are one stop.
    have hsteps : outer.steps = start.steps := h.eq_of_length_le (isPrefix_of_leadsTo houter).length_le
    rw [eq_of_steps_eq houter .refl hsteps]
    exact .refl
  | @tail last inner hlast hnext ih =>
    obtain ⟨node, index, entry, -, -, rfl⟩ := mem_next_iff.1 hnext
    -- Either the last index belongs to the outer stop, or the outer stop lies above `last`.
    rcases List.prefix_concat_iff.1 h with heq | hprefix
    · rw [eq_of_steps_eq houter (hlast.tail hnext) heq]
      exact .refl
    · exact (ih hprefix).tail hnext

/-- The stops from one stop on stand together in the list. -/
theorem preorder_split {start stop : Stop} (h : start.LeadsTo stop) :
    ∃ before after, start.preorder = before ++ stop.preorder ++ after := by
  induction h using Relation.ReflTransGen.head_induction_on with
  | refl => exact ⟨[], [], by simp⟩
  | @head above below hbelow _ ih =>
    obtain ⟨before, after, hsplit⟩ := ih
    obtain ⟨left, right, hnext⟩ := List.append_of_mem hbelow
    -- What stands below the siblings of `below` comes before and behind.
    refine ⟨above :: left.flatMap preorder ++ before, after ++ right.flatMap preorder, ?_⟩
    rw [preorder_eq, hnext]
    simp [hsplit]

end Stop

end PanelLayout
