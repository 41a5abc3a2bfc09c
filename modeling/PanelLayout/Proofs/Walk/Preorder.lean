import PanelLayout.Proofs.Addresses
import PanelLayout.Proofs.Parts
import PanelLayout.Proofs.Walk.Stops

/-!
# The walk as a list of stops

The walk carries an array of what was found so far from node to node.  Here that array is taken
out of it.

* `Walk.toList_visit` is the equation of the walk without the array: a visit adds what is found at
  the node and then, entry by entry, what a walk of that entry alone would find.
* `Node.validate_eq_flatMap` reads a whole validation off the list of stops.
* `Node.findings_eq_flatten` names the seven checks of one node in their order.

`Walk.visit_appends_in_preorder` puts the three together.
-/

namespace PanelLayout

/-! ## §1 One node -/

/-- The findings of the seven checks of a node, in the order in which they are made. -/
def Node.checks (rules : RuleSet) (parent : Option Node) (depth : Nat) (node : Node) :
    List (List Finding) :=
  [Findings.ofKind node.kindTag,
    Findings.ofLengths rules node,
    Findings.ofVocabulary node.kindTag node,
    Findings.ofValues rules node.kindTag node,
    Findings.ofWeight parent node,
    Findings.ofExpressions rules node,
    Findings.ofNesting rules depth node]

theorem Node.findings_eq_flatten (rules : RuleSet) (parent : Option Node) (depth : Nat)
    (node : Node) : node.findings rules parent depth = (node.checks rules parent depth).flatten := by
  simp [Node.findings, Node.checks]

/-- What holds of a node once it holds of all nodes among its child entries holds of every node. -/
theorem Node.childInduction {motive : Node → Prop} (node : Node)
    (step : ∀ node : Node, (∀ child, Child.node child ∈ node.entries → motive child) →
      motive node) : motive node :=
  step node fun child _ => childInduction child step
termination_by sizeOf node
decreasing_by
  have hlt := Node.sizeOf_lt_of_mem_entries ‹_›
  simp only [Child.node.sizeOf_spec] at hlt
  omega

/-! ## §2 The walk without its array -/

namespace Walk

/-- What a walk that begins at a child entry finds: everything from its node on, or that the entry
is malformed. -/
def ofEntry (rules : RuleSet) (address : Address) (parent : Option Node) (depth : Nat) :
    Child → List Violation
  | .node node => (visit rules address parent depth #[] node).toList
  | .malformed => [malformedAt address]

/-- What the walks of some entries of `parent` find, the first of them having the index `index`. -/
def ofEntries (rules : RuleSet) (address : Address) (parent : Node) (depth index : Nat)
    (entries : List Child) : List Violation :=
  (entries.zipIdx index).flatMap fun (entry, i) =>
    ofEntry rules (address.child i) (some parent) (depth + 1) entry

theorem visitBelow_eq (rules : RuleSet) (address : Address) (parent : Node) (depth : Nat)
    (out : Array Violation) (attributes : List (String × AttrValue)) :
    visitBelow rules address parent depth out attributes =
      visitEntries rules address parent depth 0 out (Node.entries ⟨attributes⟩) := by
  induction attributes with
  | nil => rfl
  | cons head rest ih =>
    obtain ⟨name, value⟩ := head
    by_cases hname : name = "children"
    · -- The first attribute of that name decides, whatever its value.
      subst hname
      cases value <;> simp [visitBelow, visitEntries, Node.entries, Node.children?, Node.get?]
    · have hentries : Node.entries ⟨(name, value) :: rest⟩ = Node.entries ⟨rest⟩ := by
        simp [Node.entries, Node.children?, Node.get?, NamedList.lookup_cons_ite, Ne.symm hname]
      rw [hentries, ← ih]
      cases value <;> simp [visitBelow, hname]

theorem visit_eq (rules : RuleSet) (address : Address) (parent : Option Node) (depth : Nat)
    (out : Array Violation) (node : Node) :
    visit rules address parent depth out node =
      visitEntries rules address node depth 0
        (out ++ node.violationsAt rules address parent depth) node.entries := by
  obtain ⟨attributes⟩ := node
  rw [visit, visitBelow_eq]

/-- A visit of some entries adds what their walks find, if a visit of each of them does. -/
theorem toList_visitEntries (rules : RuleSet) (address : Address) (parent : Node)
    (depth index : Nat) (out : Array Violation) (entries : List Child)
    (hvisit : ∀ child, Child.node child ∈ entries → ∀ address out,
      (visit rules address (some parent) (depth + 1) out child).toList =
        out.toList ++ ofEntry rules address (some parent) (depth + 1) (.node child)) :
    (visitEntries rules address parent depth index out entries).toList =
      out.toList ++ ofEntries rules address parent depth index entries := by
  -- The array grows from entry to entry, so it is generalised with the index.
  induction entries generalizing index out with
  | nil => simp [visitEntries, ofEntries]
  | cons entry rest ih =>
    have hrest : ∀ out : Array Violation,
        (visitEntries rules address parent depth (index + 1) out rest).toList =
          out.toList ++ ofEntries rules address parent depth (index + 1) rest :=
      fun out => ih (index + 1) out fun child h => hvisit child (List.mem_cons_of_mem _ h)
    cases entry with
    | node child =>
      rw [visitEntries, hrest, hvisit child (List.mem_cons_self ..)]
      simp [ofEntries]
    | malformed =>
      rw [visitEntries, hrest]
      simp [ofEntries, ofEntry]

/-- A visit leaves what was found before, and adds what is found at the node and then what the
walks of its child entries find, each on its own. -/
theorem toList_visit (rules : RuleSet) (address : Address) (parent : Option Node) (depth : Nat)
    (out : Array Violation) (node : Node) :
    (visit rules address parent depth out node).toList =
      out.toList ++ (node.violationsAt rules address parent depth ++
        ofEntries rules address node depth 0 node.entries) := by
  induction node using Node.childInduction generalizing address parent depth out with
  | step node ih =>
    rw [visit_eq, toList_visitEntries, Array.toList_appendList, List.append_assoc]
    -- What a child adds does not depend on what was there, so it is what it adds to nothing.
    intro child hchild address out
    rw [ofEntry, ih child hchild, ih child hchild]
    simp

end Walk

/-! ## §3 The walk stop by stop -/

namespace Stop

/-- What the walk finds at one stop. -/
def violations (rules : RuleSet) (stop : Stop) : List Violation :=
  match stop.entry with
  | .node node => node.violationsAt rules stop.address stop.parent stop.depth
  | .malformed => [Walk.malformedAt stop.address]

theorem violations_of_node {rules : RuleSet} {stop : Stop} {node : Node}
    (h : stop.entry = .node node) :
    stop.violations rules = node.violationsAt rules stop.address stop.parent stop.depth := by
  rw [violations, h]

theorem violations_of_malformed {rules : RuleSet} {stop : Stop} (h : stop.entry = .malformed) :
    stop.violations rules = [Walk.malformedAt stop.address] := by
  rw [violations, h]

/-- What is found at a stop is a finding on its node, or says that the entry is malformed. -/
theorem finding_or_malformed_of_mem {rules : RuleSet} {stop : Stop} {violation : Violation}
    (h : violation ∈ stop.violations rules) :
    (∃ node, stop.entry = .node node ∧
      ∃ finding ∈ node.findings rules stop.parent stop.depth,
        violation = finding.locate stop.address) ∨
    (stop.entry = .malformed ∧ violation = Walk.malformedAt stop.address) := by
  cases hentry : stop.entry with
  | node node =>
    rw [violations_of_node hentry] at h
    obtain ⟨finding, hfinding, rfl⟩ := List.mem_map.1 h
    exact .inl ⟨node, rfl, finding, hfinding, rfl⟩
  | malformed =>
    rw [violations_of_malformed hentry, List.mem_singleton] at h
    exact .inr ⟨rfl, h⟩

theorem address_of_mem_violations {rules : RuleSet} {stop : Stop} {violation : Violation}
    (h : violation ∈ stop.violations rules) : violation.location.address = stop.address := by
  rcases finding_or_malformed_of_mem h with ⟨_, -, _, -, rfl⟩ | ⟨-, rfl⟩
  · rfl
  · rfl

def walk (rules : RuleSet) (stop : Stop) : List Violation :=
  Walk.ofEntry rules stop.address stop.parent stop.depth stop.entry

/-- The stops right below a node are its child entries, each deeper by one. -/
theorem ofEntries_eq_flatMap_next (rules : RuleSet) {stop : Stop} {node : Node}
    (h : stop.entry = .node node) :
    Walk.ofEntries rules stop.address node stop.depth 0 node.entries =
      stop.next.flatMap (walk rules) := by
  rw [flatMap_next h, Walk.ofEntries]
  refine List.flatMap_congr fun ⟨entry, index⟩ _ => ?_
  simp [walk, childOf, address, depth, Address.child]

/-- A walk finds what there is at its stops, in the order of the list. -/
theorem walk_eq_flatMap (rules : RuleSet) (stop : Stop) :
    stop.walk rules = stop.preorder.flatMap (violations rules) := by
  induction stop using inductionOn with
  | step stop ih =>
    -- Read backwards, the hypothesis turns the lists below into walks.
    rw [preorder_eq, List.flatMap_cons, List.flatMap_assoc, ← List.flatMap_congr ih]
    cases hentry : stop.entry with
    | node node =>
      rw [← ofEntries_eq_flatMap_next rules hentry, walk, hentry, Walk.ofEntry, Walk.toList_visit,
        violations_of_node hentry]
      simp
    | malformed =>
      rw [walk, hentry, violations_of_malformed hentry]
      simp [Walk.ofEntry, next, hentry]

/-- From a stop on one finds what there is at the stop, and then what one finds from the stops
right below it on. -/
theorem walk_eq (rules : RuleSet) (stop : Stop) :
    stop.walk rules = stop.violations rules ++ stop.next.flatMap (walk rules) := by
  rw [walk_eq_flatMap, preorder_eq, List.flatMap_cons, List.flatMap_assoc]
  exact congrArg _ (List.flatMap_congr fun below _ => (walk_eq_flatMap rules below).symm)

/-- Nothing is found from a node on if nothing is found at the node and from its child entries on. -/
theorem walk_eq_nil_iff {rules : RuleSet} {stop : Stop} {node : Node} (h : stop.entry = .node node) :
    stop.walk rules = [] ↔
      node.findings rules stop.parent stop.depth = [] ∧
        ∀ (index : Nat) (entry : Child), node.entries[index]? = some entry →
          (stop.childOf node index entry).walk rules = [] := by
  rw [walk_eq, List.append_eq_nil_iff, violations_of_node h, Node.violationsAt,
    List.map_eq_nil_iff, List.flatMap_eq_nil_iff]
  refine and_congr_right fun _ => ⟨fun hnext index entry hget => ?_, fun hchild below hbelow => ?_⟩
  · exact hnext _ (mem_next_iff.2 ⟨node, index, entry, h, hget, rfl⟩)
  · obtain ⟨node', index, entry, hnode, hget, rfl⟩ := mem_next_iff.1 hbelow
    rw [h] at hnode
    cases hnode
    exact hchild index entry hget

theorem walk_childOf_malformed (rules : RuleSet) (stop : Stop) (node : Node) (index : Nat) :
    (stop.childOf node index .malformed).walk rules =
      [Walk.malformedAt (stop.childOf node index .malformed).address] := rfl

end Stop

/-- A layout is validated stop by stop. -/
theorem Node.validate_eq_flatMap (rules : RuleSet) (root : Node) :
    root.validate rules = root.start.preorder.flatMap (Stop.violations rules) :=
  Stop.walk_eq_flatMap rules root.start

theorem Node.mem_validate_iff {rules : RuleSet} {root : Node} {violation : Violation} :
    violation ∈ root.validate rules ↔
      ∃ stop, root.start.LeadsTo stop ∧ violation ∈ stop.violations rules := by
  simp only [Node.validate_eq_flatMap, List.mem_flatMap, Stop.mem_preorder_iff]

theorem Stop.nodup_preorder_address (start : Stop) : (start.preorder.map address).Nodup := by
  have hsteps := nodup_preorder_steps start
  have hmap : start.preorder.map steps = (start.preorder.map address).map Address.steps := by
    rw [List.map_map]
    rfl
  rw [hmap] at hsteps
  exact hsteps.of_map Address.steps

/-- What is found at the address of a stop was found at the stop. -/
theorem Stop.filter_validate_address {rules : RuleSet} {root : Node} {stop : Stop}
    (hstop : root.start.LeadsTo stop) :
    (root.validate rules).filter (·.location.address = stop.address) = stop.violations rules := by
  rw [Node.validate_eq_flatMap]
  exact filter_flatMap_of_key address (fun violation : Violation => violation.location.address)
    (nodup_preorder_address root.start) (fun _ _ _ => address_of_mem_violations)
    (mem_preorder_iff.2 hstop)

/-- **The walk in preorder.**  A visit keeps what was found before and adds, first, what the seven
checks of the node find and then, in the order of the indices, what a walk of each child entry
finds on its own, with the node as parent and one step deeper.

So a validation is made of what is found at the single stops.  The list of stops names every stop
that the walk can come to, in ascending order of the indices, hence none twice; the depth of a
stop is one more than the number of its indices, each of which stands in its path. -/
theorem Walk.visit_appends_in_preorder (rules : RuleSet) :
    (∀ (address : Address) (parent : Option Node) (depth : Nat) (out : Array Violation)
        (node : Node),
      (visit rules address parent depth out node).toList =
        out.toList ++ ((node.checks rules parent depth).flatten.map (Finding.locate address) ++
          node.entries.zipIdx.flatMap fun (entry, i) =>
            ofEntry rules (address.child i) (some node) (depth + 1) entry)) ∧
    (∀ (address : Address) (index : Nat),
      (address.child index).render =
        address.render ++ (".children[" ++ toString index ++ "]")) ∧
    ∀ root : Node,
      root.validate rules = root.start.preorder.flatMap (Stop.violations rules) ∧
      (∀ stop, stop ∈ root.start.preorder ↔ root.start.LeadsTo stop) ∧
      (root.start.preorder.map Stop.steps).Pairwise (· < ·) ∧
      (root.start.preorder.map Stop.steps).Nodup := by
  refine ⟨?_, Address.render_child, fun root => ⟨?_, ?_, ?_, ?_⟩⟩
  · intro address parent depth out node
    rw [toList_visit, Node.violationsAt, Node.findings_eq_flatten]
    rfl
  · exact root.validate_eq_flatMap rules
  · exact fun stop => Stop.mem_preorder_iff
  · exact Stop.preorder_steps_sorted root.start
  · exact Stop.nodup_preorder_steps root.start

end PanelLayout
