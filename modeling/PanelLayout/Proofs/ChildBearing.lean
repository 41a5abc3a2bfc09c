import PanelLayout.Proofs.Rules.Reachable
import PanelLayout.Proofs.Walk.Update

/-!
# Which nodes of a valid layout may have children

The tables say of almost every attribute, and of every kind, that a node of the kind may have the
attribute or that it must not.  They say neither of `children`, but for containers, and neither of
`direction` for texts and icons.  What no table names is ignored, and yet the walk goes down into
`children` whatever the kind of the node.

`Node.children_of_valid` says what a valid layout does keep to: children with a weight are those of
a container, and whether a node may be given children is a matter of these children alone, of how
many they are and of what is found in them.
-/

namespace PanelLayout

/-! ## §1 The tables -/

namespace NodeKind

/-- The attributes that a node of the kind has or may have. -/
def vocabulary (kind : NodeKind) : List String := kind.required ++ kind.optional

/-- What is an attribute of one kind is an attribute of another or forbidden to it, with two
exceptions. -/
theorem mem_vocabulary_or_forbidden (kind : NodeKind) {other : NodeKind} {name : String}
    (h : name ∈ other.vocabulary) :
    name ∈ kind.vocabulary ∨ name ∈ kind.forbidden ∨ name = "children" ∨ name = "direction" := by
  revert h
  revert name
  cases kind <;> cases other <;> decide

end NodeKind

namespace Node

variable {rules : RuleSet} {parent : Option Node} {depth : Nat} {kind other : NodeKind}
  {node : Node} {name : String}

/-- A well-formed node keeps to the vocabulary of its kind, with the two exceptions. -/
theorem mem_vocabulary_of_contains (hnode : node.WellFormedAs rules parent depth kind)
    (hname : name ∈ other.vocabulary) (hthere : node.contains name) :
    name ∈ kind.vocabulary ∨ name = "children" ∨ name = "direction" := by
  rcases kind.mem_vocabulary_or_forbidden hname with h | h | h
  · exact .inl h
  · exact absurd hthere (hnode.forbidden name h)
  · exact .inr h

/-! ## §2 A node that is given children -/

variable {entries : List Child}

/-- No limit on lengths is one on the children. -/
theorem ofLengths_withChildren (hrules : rules.Reachable) :
    Findings.ofLengths rules (node.withChildren entries) = Findings.ofLengths rules node := by
  refine List.flatMap_congr fun ⟨field, max⟩ hmem => ?_
  have hlimited : field ∈ NamedList.names rules.maxLengths := List.mem_map.2 ⟨_, hmem, rfl⟩
  have hfield : field ≠ "children" := by
    rintro rfl
    rw [hrules.names_maxLengths] at hlimited
    revert hlimited
    decide
  dsimp only [Findings.ofLength]
  rw [agreeExcept_withChildren field hfield]

/-- A node that is told nothing, and then is given children, is told of their number at most. -/
theorem findings_withChildren_eq_nil_iff (hrules : rules.Reachable)
    (hnode : node.findings rules parent depth = []) :
    (node.withChildren entries).findings rules parent depth = [] ↔
      entries.length ≤ rules.limits.maxChildren := by
  have hlengths : Findings.ofLengths rules (node.withChildren entries) =
      Findings.ofLengths rules node := ofLengths_withChildren hrules
  obtain ⟨others, hwith, hwithout⟩ := findings_congr_aside parent depth
    agreeExcept_withChildren hlengths fun _ => ofForbidden_withChildren
  rw [hnode, List.nil_eq, List.append_eq_nil_iff] at hwithout
  rw [hwith, hwithout.1, List.nil_append, Findings.ofChildren, get?_withChildren]
  simp

end Node

namespace Stop

variable {rules : RuleSet} {stop : Stop} {node : Node} {entries : List Child}

/-- Where nothing is found from a node on, it may be given the children in which nothing is found
and which are not too many. -/
theorem walk_withChildren_eq_nil_iff (hrules : rules.Reachable) (hvalid : stop.walk rules = [])
    (hnode : stop.entry = .node node) :
    (stop.modify (Node.withChildren entries)).walk rules = [] ↔
      entries.length ≤ rules.limits.maxChildren ∧
        ∀ (index : Nat) (entry : Child), entries[index]? = some entry →
          (stop.childOf node index entry).walk rules = [] := by
  obtain ⟨hfindings, -⟩ := (walk_eq_nil_iff hnode).1 hvalid
  -- The entries look up to the node for its kind and its direction, and these it keeps.
  have hchild : ∀ index entry,
      ((stop.modify (Node.withChildren entries)).childOf (node.withChildren entries) index
        entry).walk rules = (stop.childOf node index entry).walk rules :=
    fun index entry => walk_congr rfl rfl
      (by simp [childOf, Node.agreeExcept_withChildren.distributesByWeight_eq])
  rw [walk_eq_nil_iff (entry_modify (Node.withChildren entries) hnode), Node.entries_withChildren]
  simp only [hchild]
  exact and_congr_left fun _ => Node.findings_withChildren_eq_nil_iff hrules hfindings

/-- Where nothing is found from a node on, a child with a weight is that of a container. -/
theorem container_of_weight {child : Node} (hvalid : stop.walk rules = [])
    (hnode : stop.entry = .node node) (hchild : .node child ∈ node.entries)
    (hweight : child.contains "weight") : node.kindTag = .known .container := by
  obtain ⟨index, hget⟩ := List.getElem?_of_mem hchild
  have hbelow := ((walk_eq_nil_iff hnode).1 hvalid).2 index _ hget
  obtain ⟨kind, hwell⟩ := wellFormed_of_walk_eq_nil hbelow rfl
  obtain ⟨above, habove, hdirects⟩ := hwell.weight hweight
  -- The node above the child is the node itself.
  cases habove
  exact Node.kindTag_eq_known_iff.2 hdirects.container

end Stop

/-! ## §3 The layout -/

/-- **Who has children.**  Every node of a valid layout is of a known kind, and of the attributes
that nodes have at all it has those of its kind, or `children`, or `direction`.  If one of its
children has a weight, the node is a container.  But whatever its kind, the layout stays valid when
the node is given other children, exactly if these are not too many and nothing is found in them. -/
theorem Node.children_of_valid {rules : RuleSet} {root node : Node} {stop : Stop}
    (hrules : rules.Reachable) (hvalid : root.validate rules = [])
    (hstop : root.start.LeadsTo stop) (hnode : stop.entry = .node node) :
    ∃ kind, node.kindTag = .known kind ∧
      (∀ other : NodeKind, ∀ name ∈ other.vocabulary, node.contains name →
        name ∈ kind.vocabulary ∨ name = "children" ∨ name = "direction") ∧
      ((∃ child, .node child ∈ node.entries ∧ child.contains "weight") → kind = .container) ∧
      ∀ entries, (modifyAt (withChildren entries) stop.steps root).validate rules = [] ↔
        entries.length ≤ rules.limits.maxChildren ∧
          ∀ (index : Nat) (entry : Child), entries[index]? = some entry →
            (stop.childOf node index entry).walk rules = [] := by
  obtain ⟨hwalk, hmodified⟩ := validate_modifyAt_of_valid hvalid hstop
  obtain ⟨kind, hwell⟩ := Stop.wellFormed_of_walk_eq_nil hwalk hnode
  have hkind := kindTag_eq_known_iff.2 hwell.type
  refine ⟨kind, hkind, fun other name hname => mem_vocabulary_of_contains hwell hname, ?_, ?_⟩
  · rintro ⟨child, hchild, hweight⟩
    have hcontainer := Stop.container_of_weight hwalk hnode hchild hweight
    rw [hkind] at hcontainer
    cases hcontainer
    rfl
  · intro entries
    rw [hmodified]
    exact Stop.walk_withChildren_eq_nil_iff hrules hwalk hnode

/-- A text that says nothing but what a text must say. -/
def Node.caption (id content : String) : Node :=
  ⟨[("id", .text id), ("type", .text "text"),
    ("position", .list [.number (.int 0), .number (.int 0)]), ("anchor", .text "center"),
    ("content", .text content)]⟩

/-- A text may be given another text as its child. -/
theorem Node.children_of_caption :
    (caption "a" "x").validate .builtin = [] ∧
      ((caption "a" "x").withChildren [.node (caption "b" "y")]).validate .builtin = [] := by
  have hvalid : (caption "a" "x").validate .builtin = [] := by decide +kernel
  obtain ⟨-, -, -, -, hchildren⟩ := children_of_valid .builtin hvalid .refl rfl
  refine ⟨hvalid, (hchildren [.node (caption "b" "y")]).2 ⟨by decide, fun index entry hget => ?_⟩⟩
  cases index with
  | zero =>
    cases hget
    decide +kernel
  | succ index => cases hget

/-- A valid layout in which a node that is no container has children. -/
theorem Node.children_of_text :
    ∃ root : Node, root.validate .builtin = [] ∧ root.contains "children" ∧
      root.kindTag = .known .text := by
  refine ⟨(caption "a" "x").withChildren [.node (caption "b" "y")], ?_, ?_, ?_⟩
  · decide +kernel
  · decide
  · decide

end PanelLayout
