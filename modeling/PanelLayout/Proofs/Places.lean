import PanelLayout.Document
import PanelLayout.Proofs.Findings.Own
import PanelLayout.Proofs.Rules.Reachable
import PanelLayout.Proofs.Walk.Preorder

/-!
# Every violation stands at a real place, and at one only

A violation of a layout tells where it stands by a text.  The text begins with `root`, goes on
with the indices of child entries, and ends with a place of the node reached.  Under rules that a
project can reach

* the indices lead to a node of the layout that has the place, or, for a malformed entry and for
  nothing else, to a malformed entry;
* the text tells the indices and the place, since no name in it can be taken for anything else.

A document that is no layout has one violation, which stands nowhere.
-/

namespace PanelLayout

/-! ## §1 Names -/

theorem RuleSet.Reachable.hasPlainFields {rules : RuleSet} (h : rules.Reachable) :
    rules.HasPlainFields := by
  intro field max hmem
  have hfield : field ∈ NamedList.names rules.maxLengths := List.mem_map.2 ⟨_, hmem, rfl⟩
  rw [h.names_maxLengths] at hfield
  have hplain : ∀ known ∈ ["id", "content", "condition", "icon_id"], isPlainName known := by decide
  exact hplain field hfield

/-! ## §2 Violations at their stops -/

/-- The violation stands at a stop: at a place of its node, or, for a malformed entry, at the
entry itself. -/
structure Violation.StandsAt (stop : Stop) (violation : Violation) : Prop where
  address : violation.location.address = stop.address
  plain : violation.location.place.IsPlain
  entry :
    (violation.problem = .malformedChildEntry ∧ stop.entry = .malformed ∧
        violation.location.place = .node) ∨
      (violation.problem ≠ .malformedChildEntry ∧
        ∃ node, stop.entry = .node node ∧ violation.location.place.On node)

/-- A problem of the document as a whole. -/
def Problem.IsUnparsable (problem : Problem) : Prop := ∃ reason, problem = .unparsableDocument reason

namespace Finding

variable {rules : RuleSet} {parent : Option Node} {depth : Nat} {node : Node} {finding : Finding}

/-- What is found on a node is a problem neither of an entry nor of the document. -/
theorem problem_of_mem_findings (h : finding ∈ node.findings rules parent depth) :
    finding.problem ≠ .malformedChildEntry ∧ ¬ finding.problem.IsUnparsable := by
  rcases Node.mem_findings_iff.1 h with hown | hweight | hdepth
  · -- The problems of entries and of documents are no node's own.
    have hown := (Findings.isOwnOf_of_mem_ownFindings hown).own
    refine ⟨fun heq => absurd (heq ▸ hown) (by decide), fun ⟨reason, heq⟩ => ?_⟩
    rw [heq] at hown
    cases hown
  · obtain ⟨-, rfl⟩ := Node.eq_of_mem_ofWeight hweight
    exact ⟨by simp, fun ⟨_, heq⟩ => nomatch heq⟩
  · rw [Node.eq_of_mem_ofDepth hdepth]
    exact ⟨by simp, fun ⟨_, heq⟩ => nomatch heq⟩

/-- What is found on a node stands at a place of it. -/
theorem place_of_mem_findings (hrules : rules.HasPlainFields)
    (h : finding ∈ node.findings rules parent depth) :
    finding.place.On node ∧ finding.place.IsPlain := by
  rcases Node.mem_findings_iff.1 h with hown | hweight | hdepth
  · have hown := Findings.isOwnOf_of_mem_ownFindings hown
    exact ⟨hown.place, hown.plain hrules⟩
  · obtain ⟨hcontains, rfl⟩ := Node.eq_of_mem_ofWeight hweight
    have hplain : isPlainName "weight" := by decide
    exact ⟨hcontains, hplain⟩
  · rw [Node.eq_of_mem_ofDepth hdepth]
    exact ⟨trivial, trivial⟩

end Finding

namespace Stop

variable {rules : RuleSet} {stop : Stop} {violation : Violation}

theorem standsAt_of_mem_violations (hrules : rules.HasPlainFields)
    (h : violation ∈ stop.violations rules) : violation.StandsAt stop := by
  have haddress := address_of_mem_violations h
  rcases finding_or_malformed_of_mem h with
    ⟨node, hentry, finding, hfinding, rfl⟩ | ⟨hentry, rfl⟩
  · obtain ⟨hon, hplain⟩ := Finding.place_of_mem_findings hrules hfinding
    obtain ⟨hproblem, -⟩ := Finding.problem_of_mem_findings hfinding
    exact ⟨haddress, hplain, .inr ⟨hproblem, node, hentry, hon⟩⟩
  · exact ⟨haddress, trivial, .inl ⟨rfl, hentry, rfl⟩⟩

theorem not_isUnparsable_of_mem_violations (h : violation ∈ stop.violations rules) :
    ¬ violation.problem.IsUnparsable := by
  rcases finding_or_malformed_of_mem h with ⟨_, -, finding, hfinding, rfl⟩ | ⟨-, rfl⟩
  · exact (Finding.problem_of_mem_findings hfinding).2
  · exact fun ⟨_, heq⟩ => nomatch heq

/-- A malformed entry is reported at a malformed entry only. -/
theorem entry_of_malformedChildEntry (h : violation ∈ stop.violations rules)
    (hproblem : violation.problem = .malformedChildEntry) :
    stop.entry = .malformed ∧ violation = Walk.malformedAt stop.address := by
  rcases finding_or_malformed_of_mem h with ⟨_, -, finding, hfinding, rfl⟩ | hmalformed
  · exact absurd hproblem (Finding.problem_of_mem_findings hfinding).1
  · exact hmalformed

end Stop

/-! ## §3 Documents -/

/-- The path of a violation that stands at a stop: the base, the steps, and the place. -/
theorem Violation.path_eq {stop : Stop} {violation : Violation} (h : violation.StandsAt stop) :
    violation.path = "root" ++
      (String.join (stop.steps.map fun i => ".children[" ++ toString i ++ "]") ++
        violation.location.place.render) := by
  have haddress : violation.location.address.render = stop.address.render := by rw [h.address]
  rw [Violation.path, Location.render, haddress]
  exact String.append_assoc

theorem Violation.location_eq_of_path_eq {stop stop' : Stop} {violation violation' : Violation}
    (h : violation.StandsAt stop) (h' : violation'.StandsAt stop')
    (hpath : violation.path = violation'.path) : violation.location = violation'.location := by
  obtain ⟨⟨address, place⟩, problem⟩ := violation
  obtain ⟨⟨address', place'⟩, problem'⟩ := violation'
  have haddress : address = ⟨"root", stop.steps⟩ := h.address
  have haddress' : address' = ⟨"root", stop'.steps⟩ := h'.address
  subst haddress haddress'
  obtain ⟨hsteps, hplace⟩ := Location.eq_of_render_eq h.plain h'.plain hpath
  have hplace : place = place' := hplace
  rw [hsteps, hplace]

/-- What may be reported of a document: either one violation, of the document as a whole, with an
empty path, or violations of a layout, whose paths all begin with `root`. -/
def Document.IsReport (violations : List Violation) : Prop :=
  (∃ violation, violations = [violation] ∧ violation.problem.IsUnparsable ∧
      violation.path = "") ∨
    ∀ violation ∈ violations, ¬ violation.problem.IsUnparsable ∧
      ∃ rest, violation.path = "root" ++ rest

/-- A document is reported as one that could not be read, or as a layout. -/
theorem Document.isReport_validateValue {rules : RuleSet} (hrules : rules.HasPlainFields)
    (outcome : Except String Yaml.Value) :
    Document.IsReport (Document.validateValue rules outcome) := by
  have hpath : Location.nowhere.render = "" := by decide
  have hunparsable : ∀ reason, Document.IsReport [Document.unparsable reason] :=
    fun reason => .inl ⟨_, rfl, ⟨reason, rfl⟩, hpath⟩
  unfold Document.validateValue
  split
  · -- The text is no document.
    exact hunparsable _
  · split
    · rename_i root _
      refine .inr fun violation hviolation => ?_
      obtain ⟨stop, -, hviolation⟩ := Node.mem_validate_iff.1 hviolation
      exact ⟨Stop.not_isUnparsable_of_mem_violations hviolation, _,
        Violation.path_eq (Stop.standsAt_of_mem_violations hrules hviolation)⟩
    · exact hunparsable _

/-! ## §4 The places of violations -/

/-- **Every violation stands at one real place.**  Under reachable rules the path of a violation
is `root`, the steps to a stop of the walk, and a place; the stop is a malformed entry for the
problem of malformed entries, and otherwise a node that has the place.  Different steps or
different plain places have different texts, so two violations with one path have one location.
And whatever the reading of a document comes to, it is reported either as unreadable, once and
without a path, or as a layout. -/
theorem Violation.standsAt_one_place {rules : RuleSet} (hrules : rules.Reachable) :
    (∀ (root : Node), ∀ violation ∈ root.validate rules,
      ∃ stop, root.start.LeadsTo stop ∧ violation.StandsAt stop ∧
        violation.path = "root" ++
          (String.join (stop.steps.map fun i => ".children[" ++ toString i ++ "]") ++
            violation.location.place.render)) ∧
    (∀ (steps steps' : List Nat) (place place' : Place), place.IsPlain → place'.IsPlain →
      (steps, place) ≠ (steps', place') →
        Location.render ⟨⟨"root", steps⟩, place⟩ ≠ Location.render ⟨⟨"root", steps'⟩, place'⟩) ∧
    (∀ (root root' : Node), ∀ violation ∈ root.validate rules,
      ∀ violation' ∈ root'.validate rules, violation.path = violation'.path →
        violation.location = violation'.location) ∧
    (∀ outcome, Document.IsReport (Document.validateValue rules outcome)) ∧
    ∀ text, Document.IsReport (Document.validate rules text) := by
  have hplain : rules.HasPlainFields := hrules.hasPlainFields
  have hstands : ∀ (root : Node), ∀ violation ∈ root.validate rules,
      ∃ stop, root.start.LeadsTo stop ∧ violation.StandsAt stop := by
    intro root violation hviolation
    obtain ⟨stop, hstop, hviolation⟩ := Node.mem_validate_iff.1 hviolation
    exact ⟨stop, hstop, Stop.standsAt_of_mem_violations hplain hviolation⟩
  refine ⟨?_, ?_, ?_, Document.isReport_validateValue hplain, ?_⟩
  · intro root violation hviolation
    obtain ⟨stop, hstop, hviolation⟩ := hstands root violation hviolation
    exact ⟨stop, hstop, hviolation, Violation.path_eq hviolation⟩
  · intro steps steps' place place' hplace hplace' hne heq
    obtain ⟨hsteps, hplaces⟩ := Location.eq_of_render_eq hplace hplace' heq
    exact hne (by rw [hsteps, hplaces])
  · intro root root' violation hviolation violation' hviolation' hpath
    obtain ⟨stop, -, hviolation⟩ := hstands root violation hviolation
    obtain ⟨stop', -, hviolation'⟩ := hstands root' violation' hviolation'
    exact Violation.location_eq_of_path_eq hviolation hviolation' hpath
  · exact fun text => Document.isReport_validateValue hplain _

/-- A node with two child entries: a malformed one, and a node with a weight. -/
def Node.mixedRoot : Node :=
  ⟨[("children", .children [.malformed, .node ⟨[("weight", .null)]⟩])]⟩

/-- Under the built-in rules, the weight of the second entry is a violation at `weight` of a node,
and its path is no path of the first entry. -/
theorem Violation.standsAt_mixedRoot :
    RuleSet.builtin.Reachable ∧
      ⟨⟨⟨"root", [1]⟩, .field "weight"⟩, .invalidWeightUsage⟩ ∈ Node.mixedRoot.validate .builtin ∧
      (∃ stop, Node.mixedRoot.start.LeadsTo stop ∧
        Violation.StandsAt stop ⟨⟨⟨"root", [1]⟩, .field "weight"⟩, .invalidWeightUsage⟩) ∧
      Location.render ⟨⟨"root", [1]⟩, .field "weight"⟩ ≠ Location.render ⟨⟨"root", [0]⟩, .node⟩ := by
  have hmem : ⟨⟨⟨"root", [1]⟩, .field "weight"⟩, .invalidWeightUsage⟩ ∈
      Node.mixedRoot.validate .builtin := by decide
  have hweight : Place.IsPlain (.field "weight") :=
    show isPlainName "weight" = true by decide
  obtain ⟨hplaces, hpaths, -, -, -⟩ := Violation.standsAt_one_place .builtin
  obtain ⟨stop, hstop, hstands, -⟩ := hplaces Node.mixedRoot _ hmem
  exact ⟨.builtin, hmem, ⟨stop, hstop, hstands⟩,
    hpaths [1] [0] (.field "weight") .node hweight trivial (by simp)⟩

end PanelLayout
