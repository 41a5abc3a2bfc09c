import PanelLayout.Proofs.Findings.Own
import PanelLayout.Proofs.Grammar.Validity
import PanelLayout.Proofs.Walk.Preorder

/-!
# A subtree in its surroundings

What is found in a subtree of a layout is what is found when the subtree is a layout of its own,
at other addresses, but for two things: the weight of its topmost node, which looks at the parent,
and the depths, which count from the root.

* `Stop.preorder_under` moves a list of stops to another place.
* `Violation.isAmbient` names the problems that come of the surroundings.
* `Stop.filter_walk_under` compares the two walks, these problems aside.
-/

namespace PanelLayout

/-! ## §1 Moving stops -/

/-- The stop at the same place of a layout that stands at other indices. -/
def Stop.under (outer : List Nat) (stop : Stop) : Stop := { stop with steps := outer ++ stop.steps }

/-- The violation at the same place of a layout that stands at other indices. -/
def Violation.under (outer : List Nat) (violation : Violation) : Violation :=
  let address := violation.location.address
  { violation with
    location := { violation.location with
      address := { address with steps := outer ++ address.steps } } }

namespace Stop

/-- What stands right below a stop does not depend on the parent. -/
theorem next_congr {a b : Stop} (hsteps : a.steps = b.steps) (hentry : a.entry = b.entry) :
    a.next = b.next := by
  simp only [next, childOf, hsteps, hentry]

theorem next_under (outer : List Nat) (stop : Stop) :
    (stop.under outer).next = stop.next.map (under outer) := by
  unfold next
  cases hentry : stop.entry <;> simp [under, hentry, childOf]

/-- Moving a stop moves everything below it. -/
theorem preorder_under (outer : List Nat) (stop : Stop) :
    (stop.under outer).preorder = stop.preorder.map (under outer) := by
  induction stop using inductionOn with
  | step stop ih =>
    rw [preorder_eq, preorder_eq stop, next_under, List.flatMap_map, List.map_cons,
      List.map_flatMap]
    exact congrArg _ (List.flatMap_congr ih)

def below (stop : Stop) : List Stop := stop.next.flatMap preorder

/-- Below a node of a layout stands what stands below the node as a layout of its own. -/
theorem below_eq_map_under {stop : Stop} {node : Node} (h : stop.entry = .node node) :
    stop.below = node.start.below.map (under stop.steps) := by
  -- The two differ only in the parent, which nothing below looks at.
  have hnext : stop.next = (node.start.under stop.steps).next :=
    next_congr (by simp [under, Node.start]) (by simp [under, Node.start, h])
  rw [below, below, hnext, next_under, List.flatMap_map, List.map_flatMap]
  exact List.flatMap_congr fun stop _ => preorder_under ..

end Stop

/-! ## §2 What depends on the surroundings -/

def Problem.isNestingTooDeep : Problem → Bool
  | .nestingTooDeep _ _ => true
  | _ => false

/-- Does a violation, in a subtree whose topmost node has that address, depend on what is around
the subtree?  The depths of all its nodes do, and the weight of the topmost one. -/
def Violation.isAmbient (top : Address) (violation : Violation) : Bool :=
  violation.problem.isNestingTooDeep ||
    (violation.problem = .invalidWeightUsage && violation.location.address = top)

theorem Problem.isNestingTooDeep_eq_false_of_isOwn {problem : Problem} (h : problem.isOwn) :
    problem.isNestingTooDeep = false := by
  cases problem with
  | nestingTooDeep depth max => cases h
  | _ => rfl

namespace Finding

variable {finding : Finding} {top address : Address}

/-- The own findings of a node do not depend on what is around. -/
theorem isAmbient_locate_of_isOwn (h : finding.problem.isOwn) :
    (finding.locate address).isAmbient top = false := by
  have hweight : finding.problem ≠ .invalidWeightUsage := by
    intro heq
    rw [heq] at h
    cases h
  have hdepth := Problem.isNestingTooDeep_eq_false_of_isOwn h
  simp [Violation.isAmbient, locate, hweight, hdepth]

theorem isAmbient_locate_of_mem_ofDepth {rules : RuleSet} {depth : Nat}
    (h : finding ∈ Findings.ofDepth rules depth) : (finding.locate address).isAmbient top = true := by
  rw [Node.eq_of_mem_ofDepth h]
  simp [Violation.isAmbient, locate, Problem.isNestingTooDeep]

/-- A finding on weight depends on what is around if it is made on the topmost node. -/
theorem isAmbient_locate_of_mem_ofWeight {parent : Option Node} {node : Node}
    (h : finding ∈ Findings.ofWeight parent node) :
    (finding.locate address).isAmbient top = decide (address = top) := by
  have hproblem : finding.problem = .invalidWeightUsage := by rw [(Node.eq_of_mem_ofWeight h).2]
  simp only [Violation.isAmbient, locate, hproblem, Problem.isNestingTooDeep, decide_true,
    Bool.true_and, Bool.false_or]

end Finding

/-! ## §3 Two walks of one subtree -/

namespace Stop

/-- What is found at two stops with one entry is the same, ambient problems aside, if the one
stands at the indices of the other behind `outer` and has the same parent; the parent of the
topmost stop does not matter. -/
theorem filter_violations_under (rules : RuleSet) {outer : List Nat} {stop inner : Stop}
    (hsteps : stop.steps = outer ++ inner.steps) (hentry : stop.entry = inner.entry)
    (hparent : inner.steps = [] ∨ stop.parent = inner.parent) :
    (stop.violations rules).filter (!·.isAmbient { Address.root with steps := outer }) =
      ((inner.violations rules).filter (!·.isAmbient .root)).map (Violation.under outer) := by
  cases hinner : inner.entry with
  | malformed =>
    rw [violations_of_malformed hinner, violations_of_malformed (hentry.trans hinner)]
    simp [Walk.malformedAt, Violation.isAmbient, Problem.isNestingTooDeep, Violation.under, address,
      hsteps]
  | node node =>
    rw [violations_of_node hinner, violations_of_node (hentry.trans hinner), Node.violationsAt,
      Node.violationsAt, List.filter_map, List.filter_map, List.map_map]
    -- Moving a violation is locating its finding at the other address.
    have hlocate : Finding.locate stop.address =
        Violation.under outer ∘ Finding.locate inner.address := by
      funext finding
      simp [Finding.locate, Violation.under, address, hsteps]
    have htop : stop.address = { Address.root with steps := outer } ↔ inner.address = .root := by
      simp [address, hsteps, Address.root]
    have hfilter :
        (node.findings rules stop.parent stop.depth).filter
            ((!·.isAmbient { Address.root with steps := outer }) ∘ Finding.locate stop.address) =
          (node.findings rules inner.parent inner.depth).filter
            ((!·.isAmbient .root) ∘ Finding.locate inner.address) := by
      apply Node.filter_findings_congr
      · intro finding hown
        simp [Finding.isAmbient_locate_of_isOwn hown]
      · intro finding hown
        simp [Finding.isAmbient_locate_of_isOwn hown]
      · -- At the topmost node either weight is dropped; below it the parents are the same.
        rcases hparent with hnil | hparent
        · have haddress : inner.address = .root := by rw [address, hnil, Address.root]
          rw [List.filter_eq_nil_iff.2, List.filter_eq_nil_iff.2]
          · intro finding hmem
            simp [Finding.isAmbient_locate_of_mem_ofWeight hmem, haddress]
          · intro finding hmem
            simp [Finding.isAmbient_locate_of_mem_ofWeight hmem, htop.2 haddress]
        · rw [hparent]
          refine List.filter_congr fun finding hmem => ?_
          simp only [Function.comp_apply, Finding.isAmbient_locate_of_mem_ofWeight hmem, htop]
      · rw [List.filter_eq_nil_iff.2, List.filter_eq_nil_iff.2]
        · intro finding hmem
          simp [Finding.isAmbient_locate_of_mem_ofDepth hmem]
        · intro finding hmem
          simp [Finding.isAmbient_locate_of_mem_ofDepth hmem]
    rw [hfilter, hlocate]

/-- A walk of a subtree finds what a walk of the subtree alone finds, ambient problems aside. -/
theorem filter_walk_under (rules : RuleSet) {stop : Stop} {node : Node}
    (h : stop.entry = .node node) :
    (stop.walk rules).filter (!·.isAmbient stop.address) =
      ((node.validate rules).filter (!·.isAmbient .root)).map (Violation.under stop.steps) := by
  have hstop : stop.preorder = stop :: node.start.below.map (under stop.steps) := by
    rw [preorder_eq, ← below_eq_map_under h]
    rfl
  have hnode : node.start.preorder = node.start :: node.start.below := preorder_eq _
  -- The topmost stops are compared on their own, since they differ in the parent.
  have htop : (stop.violations rules).filter (!·.isAmbient stop.address) =
      ((node.start.violations rules).filter (!·.isAmbient .root)).map (Violation.under stop.steps) :=
    filter_violations_under rules (by simp [Node.start]) h (.inl rfl)
  have hbelow : ∀ inner ∈ node.start.below,
      ((inner.under stop.steps).violations rules).filter (!·.isAmbient stop.address) =
        ((inner.violations rules).filter (!·.isAmbient .root)).map (Violation.under stop.steps) :=
    fun inner _ => filter_violations_under rules rfl rfl (.inr rfl)
  rw [walk_eq_flatMap, Node.validate_eq_flatMap, hstop, hnode, List.flatMap_cons,
    List.flatMap_cons, List.filter_append, List.filter_append, List.map_append, List.filter_flatMap,
    List.filter_flatMap, List.map_flatMap, List.flatMap_map, ← List.flatMap_congr hbelow]
  exact congrArg (· ++ _) htop

end Stop

end PanelLayout
