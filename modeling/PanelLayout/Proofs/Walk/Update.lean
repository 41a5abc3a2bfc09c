import PanelLayout.Proofs.Findings.Reads
import PanelLayout.Proofs.Insertion
import PanelLayout.Proofs.Walk.Subtree

/-!
# Layouts of which one node is changed

A node deep inside a layout is changed by changing, all the way down to it, one child entry of
each node above.  The nodes above keep the number of their children and all other attributes, so
nothing else is found at them; and what stands beside the way looks up to them only for whether
they distribute by weight.

`Node.validate_modifyAt` says it: the violations before and behind the changed node's are those
of the layout as it was.  If that was valid, `Node.validate_modifyAt_of_valid` leaves only what is
found from the changed node on.
-/

namespace PanelLayout

/-! ## §1 Changing nodes -/

/-- The entry with its node changed; a malformed entry has none. -/
def Child.map (f : Node → Node) : Child → Child
  | .node child => .node (f child)
  | .malformed => .malformed

namespace Node

/-- The node with these entries as its children. -/
def withChildren (entries : List Child) (node : Node) : Node :=
  node.insert "children" (.children entries)

/-- The node with its child entries changed, if it has a list of them. -/
def modifyEntries (f : List Child → List Child) (node : Node) : Node :=
  match node.children? with
  | some entries => node.withChildren (f entries)
  | none => node

/-- The layout with one of its nodes changed, the one to which the indices lead. -/
def modifyAt (f : Node → Node) : List Nat → Node → Node
  | [], node => f node
  | index :: rest, node =>
    node.modifyEntries fun entries => entries.modify index (Child.map (modifyAt f rest))

theorem agreeExcept_insert {node : Node} {name : String} {value : AttrValue} :
    (node.insert name value).AgreeExcept name node :=
  fun _ hother => (get?_insert ..).trans (if_neg hother)

/-- What a kind forbids is found as before when another attribute is given. -/
theorem ofForbidden_insert {kind : NodeKind} {name : String} (h : name ∉ kind.forbidden)
    {node : Node} {value : AttrValue} :
    Findings.ofForbidden kind (node.insert name value) = Findings.ofForbidden kind node := by
  rw [Findings.ofForbidden, Findings.ofForbidden, insert, NamedList.names_set]
  split
  · rfl
  · simp [h]

/-! ## §2 What a node with other children shows -/

variable {rules : RuleSet} {node : Node} {entries : List Child} {kind : NodeKind}
  {f : List Child → List Child}

theorem get?_withChildren :
    (node.withChildren entries).get? "children" = some (.children entries) := by
  rw [withChildren, get?_insert, if_pos rfl]

theorem agreeExcept_withChildren : (node.withChildren entries).AgreeExcept "children" node :=
  agreeExcept_insert

theorem entries_withChildren : (node.withChildren entries).entries = entries := by
  rw [Node.entries, children?_eq_some_iff.2 get?_withChildren]
  rfl

theorem ofForbidden_withChildren :
    Findings.ofForbidden kind (node.withChildren entries) = Findings.ofForbidden kind node :=
  ofForbidden_insert (by cases kind <;> decide)

theorem entries_modifyEntries (hnil : f [] = []) :
    (node.modifyEntries f).entries = f node.entries := by
  unfold modifyEntries
  cases hchildren : node.children? with
  | none => simp [Node.entries, hchildren, hnil]
  | some entries =>
    dsimp only
    rw [entries_withChildren, Node.entries, hchildren]
    rfl

theorem agreeExcept_modifyEntries : (node.modifyEntries f).AgreeExcept "children" node := by
  unfold modifyEntries
  cases node.children? with
  | none => exact fun _ _ => rfl
  | some entries => exact agreeExcept_withChildren

/-- As long as the number of the children stays, nothing else is found at a node of which other
children are given. -/
theorem findings_modifyEntries (hlength : ∀ entries, (f entries).length = entries.length)
    (parent : Option Node) (depth : Nat) :
    (node.modifyEntries f).findings rules parent depth = node.findings rules parent depth := by
  cases hchildren : node.children? with
  | none => rw [modifyEntries, hchildren]
  | some entries =>
    have hget := children?_eq_some_iff.1 hchildren
    rw [modifyEntries, hchildren]
    refine findings_congr agreeExcept_withChildren ?lengths
      (fun _ => ofForbidden_withChildren) ?number
    case lengths =>
      -- A list of children is rendered by its length.
      refine Findings.ofLengths_congr fun field => ?_
      by_cases hfield : field = "children"
      · rw [hfield, get?_withChildren, hget]
        simp [AttrValue.render, hlength]
      · rw [agreeExcept_withChildren field hfield]
    case number =>
      rw [Findings.ofChildren, Findings.ofChildren, get?_withChildren, hget]
      simp only [hlength]

end Node

/-! ## §3 What is found from a stop on -/

namespace Stop

variable {rules : RuleSet}

/-- The stop with its node changed. -/
def modify (f : Node → Node) (stop : Stop) : Stop := { stop with entry := stop.entry.map f }

theorem entry_modify {stop : Stop} {node : Node} (f : Node → Node)
    (hnode : stop.entry = .node node) : (stop.modify f).entry = .node (f node) := by
  rw [modify, hnode]
  rfl

/-- Of the node above, the walk sees whether it distributes by weight. -/
theorem walk_congr {a b : Stop} (hsteps : a.steps = b.steps) (hentry : a.entry = b.entry)
    (hparent : a.parent.any Findings.distributesByWeight =
      b.parent.any Findings.distributesByWeight) : a.walk rules = b.walk rules := by
  have hviolations : a.violations rules = b.violations rules := by
    unfold violations
    rw [hentry]
    cases b.entry with
    | node node =>
      simp only [Node.violationsAt, address, depth, hsteps, Node.findings_congr_parent hparent]
    | malformed => simp only [address, hsteps]
  rw [walk_eq, walk_eq, hviolations, next_congr hsteps hentry]

/-- Below a node whose entries are split, the walk is split as well. -/
theorem flatMap_walk_next (rules : RuleSet) {stop : Stop} {node : Node} {left right : List Child}
    {entry : Child} (hnode : stop.entry = .node node)
    (hentries : node.entries = left ++ entry :: right) :
    stop.next.flatMap (walk rules) =
      (left.zipIdx.flatMap fun (other, i) => (stop.childOf node i other).walk rules) ++
        (stop.childOf node left.length entry).walk rules ++
          ((right.zipIdx (left.length + 1)).flatMap fun (other, i) =>
            (stop.childOf node i other).walk rules) := by
  rw [flatMap_next hnode, hentries, List.zipIdx_append, List.zipIdx_cons]
  simp [List.flatMap_append]

/-- Where a child entry of a node is changed, the walk finds what there is from the changed entry
on, and before it and behind it what was there before. -/
theorem walk_modify_child (rules : RuleSet) {start : Stop} {node : Node} {index : Nat}
    {entry : Child} (hnode : start.entry = .node node) (hget : node.entries[index]? = some entry) :
    ∃ before after,
      start.walk rules = before ++ (start.childOf node index entry).walk rules ++ after ∧
      ∀ f, (start.modify (Node.modifyEntries (·.modify index (Child.map f)))).walk rules =
        before ++ ((start.childOf node index entry).modify f).walk rules ++ after := by
  obtain ⟨hindex, hentry⟩ := List.getElem?_eq_some_iff.1 hget
  have hlength : (node.entries.take index).length = index :=
    List.length_take_of_le (Nat.le_of_lt hindex)
  have hentries : node.entries =
      node.entries.take index ++ entry :: node.entries.drop (index + 1) := by
    rw [← hentry, ← List.drop_eq_getElem_cons hindex, List.take_append_drop]
  -- Before the entry stand the findings on the node itself, and the entries to the left.
  refine ⟨start.violations rules ++ ((node.entries.take index).zipIdx.flatMap
      fun (other, i) => (start.childOf node i other).walk rules),
    ((node.entries.drop (index + 1)).zipIdx (index + 1)).flatMap
      fun (other, i) => (start.childOf node i other).walk rules, ?_, fun f => ?_⟩
  · rw [walk_eq, flatMap_walk_next rules hnode hentries, hlength]
    simp only [List.append_assoc]
  · obtain ⟨g, hg⟩ : ∃ g : List Child → List Child, g = (·.modify index (Child.map f)) := ⟨_, rfl⟩
    rw [← hg]
    have hlengths : ∀ entries, (g entries).length = entries.length := by
      intro entries
      rw [hg, List.length_modify]
    have hchanged := entry_modify (Node.modifyEntries g) hnode
    have hnewEntries : (node.modifyEntries g).entries = node.entries.take index ++
        entry.map f :: node.entries.drop (index + 1) := by
      rw [Node.entries_modifyEntries (by simp [hg]), hg]
      simp only [List.modify_eq_take_cons_drop hindex, hentry]
    have hviolations : (start.modify (Node.modifyEntries g)).violations rules =
        start.violations rules := by
      rw [violations_of_node hchanged, violations_of_node hnode, Node.violationsAt,
        Node.findings_modifyEntries hlengths]
      rfl
    -- The entries look up to the changed node only for the weight, which it treats as before.
    have hchild : ∀ i other,
        ((start.modify (Node.modifyEntries g)).childOf (node.modifyEntries g) i other).walk rules =
          (start.childOf node i other).walk rules := fun i other =>
      walk_congr rfl rfl (by simp [childOf, Node.agreeExcept_modifyEntries.distributesByWeight_eq])
    rw [walk_eq, hviolations, flatMap_walk_next rules hchanged hnewEntries, hlength]
    simp only [hchild, List.append_assoc]
    rfl

/-- Where a stop further down is changed, the walk finds what there is from the changed stop on,
and before it and behind it what was there before. -/
theorem walk_modify (rules : RuleSet) {start stop : Stop} (hstop : start.LeadsTo stop) :
    ∃ before after, start.walk rules = before ++ stop.walk rules ++ after ∧
      ∀ f rest, stop.steps = start.steps ++ rest →
        (start.modify (Node.modifyAt f rest)).walk rules =
          before ++ (stop.modify f).walk rules ++ after := by
  -- Along the way to the stop; each step down adds what stands beside it.
  induction hstop using Relation.ReflTransGen.head_induction_on with
  | refl =>
    refine ⟨[], [], by simp, fun f rest hrest => ?_⟩
    have hnil : rest = [] := List.self_eq_append_right.1 hrest
    have hmodify : Node.modifyAt f [] = f := rfl
    rw [hnil, hmodify, List.nil_append, List.append_nil]
  | @head start below hbelow hleads ih =>
    obtain ⟨node, index, entry, hnode, hget, rfl⟩ := mem_next_iff.1 hbelow
    obtain ⟨left, right, hstep, hstepped⟩ := walk_modify_child rules hnode hget
    obtain ⟨before, after, hwalk, hmodified⟩ := ih
    refine ⟨left ++ before, after ++ right, ?_, fun f rest hrest => ?_⟩
    · rw [hstep, hwalk]
      simp only [List.append_assoc]
    · -- The first of the indices that are left leads to the stop below.
      obtain ⟨tail, htail⟩ := isPrefix_of_leadsTo hleads
      have hcons : rest = index :: tail := by
        rw [← htail, childOf, List.append_assoc, List.append_cancel_left_eq] at hrest
        exact hrest.symm
      have hmodify : Node.modifyAt f (index :: tail) =
          Node.modifyEntries (·.modify index (Child.map (Node.modifyAt f tail))) := rfl
      rw [hcons, hmodify, hstepped, hmodified f tail htail.symm]
      simp only [List.append_assoc]

/-- A changed node that keeps its child entries is told what there is to be found at it, and its
entries what there is below it. -/
theorem walk_modify_of_entries (rules : RuleSet) {stop : Stop} {node : Node} {f : Node → Node}
    (hnode : stop.entry = .node node) (hentries : (f node).entries = node.entries) :
    (stop.modify f).walk rules =
      (f node).violationsAt rules stop.address stop.parent stop.depth ++
        node.entries.zipIdx.flatMap fun (entry, i) =>
          (stop.childOf (f node) i entry).walk rules := by
  have hchanged := entry_modify f hnode
  rw [walk_eq, violations_of_node hchanged, flatMap_next hchanged, hentries]
  rfl

end Stop

/-- A layout of which one node is changed has the violations that it had, and in the place of
those from the node on it has those from the changed node on. -/
theorem Node.validate_modifyAt (rules : RuleSet) {root : Node} {stop : Stop}
    (hstop : root.start.LeadsTo stop) :
    ∃ before after, root.validate rules = before ++ stop.walk rules ++ after ∧
      ∀ f, (modifyAt f stop.steps root).validate rules =
        before ++ (stop.modify f).walk rules ++ after := by
  obtain ⟨before, after, hwalk, hmodified⟩ := Stop.walk_modify rules hstop
  exact ⟨before, after, hwalk, fun f => hmodified f stop.steps rfl⟩

/-- If the changed node keeps its child entries, and treats their weights as before, the layout has
other violations at this node only. -/
theorem Node.validate_modifyAt_of_entries (rules : RuleSet) {root node : Node} {stop : Stop}
    (hstop : root.start.LeadsTo stop) (hnode : stop.entry = .node node) :
    ∃ before after,
      root.validate rules =
        before ++ node.violationsAt rules stop.address stop.parent stop.depth ++ after ∧
      ∀ f : Node → Node, (f node).entries = node.entries →
        Findings.distributesByWeight (f node) = Findings.distributesByWeight node →
        (modifyAt f stop.steps root).validate rules =
          before ++ (f node).violationsAt rules stop.address stop.parent stop.depth ++ after := by
  obtain ⟨before, after, hwalk, hmodified⟩ := validate_modifyAt rules hstop
  refine ⟨before, stop.next.flatMap (Stop.walk rules) ++ after, ?_, fun f hentries hweight => ?_⟩
  · rw [hwalk, Stop.walk_eq, Stop.violations_of_node hnode]
    simp only [List.append_assoc]
  · -- The entries look up to the changed node only for the weight.
    have hbelow : (node.entries.zipIdx.flatMap fun (entry, i) =>
        (stop.childOf (f node) i entry).walk rules) = stop.next.flatMap (Stop.walk rules) := by
      rw [Stop.flatMap_next hnode]
      refine List.flatMap_congr fun ⟨entry, i⟩ _ => ?_
      exact Stop.walk_congr rfl rfl (by simp [Stop.childOf, hweight])
    rw [hmodified, Stop.walk_modify_of_entries rules hnode hentries, hbelow]
    simp only [List.append_assoc]

/-- A valid layout of which one node is changed has the violations from the changed node on. -/
theorem Node.validate_modifyAt_of_valid {rules : RuleSet} {root : Node} {stop : Stop}
    (hvalid : root.validate rules = []) (hstop : root.start.LeadsTo stop) :
    stop.walk rules = [] ∧
      ∀ f, (modifyAt f stop.steps root).validate rules = (stop.modify f).walk rules := by
  obtain ⟨before, after, hsplit, hmodified⟩ := validate_modifyAt rules hstop
  rw [hvalid] at hsplit
  simp only [List.nil_eq, List.append_eq_nil_iff] at hsplit
  obtain ⟨⟨rfl, hwalk⟩, rfl⟩ := hsplit
  refine ⟨hwalk, fun f => ?_⟩
  rw [hmodified, List.nil_append, List.append_nil]

end PanelLayout
