import Mathlib.Data.List.Chain
import Mathlib.Data.List.MinMax
import PanelLayout.Proofs.Expression.Depth
import PanelLayout.Proofs.Expression.Operators

/-!
# Depth and segments

The depth of an expression and its segments are found by two passes that tell literal braces in two
ways: the first skips what stands behind a backslash, the second looks back for one.  They agree
about a text in which no backslash stands behind another (`Undoubled`).

* `depthFrom_eq_peakFrom_weights` is the agreement: the first pass counts the braces that count for
  the second.
* `depthFrom_unescapeOperators` says that the depth of a segment is that of its raw text.
* `peakFrom_part` is what the count does over a gap and a segment, and `peakFrom_parts` over all of
  them: each segment is counted one level deeper than by itself.
* `Division.noOpening_rest` says that nothing opens in the rest of a text, if every brace that
  counts stands in a segment.

`nestingDepth_segments` puts them together.
-/

namespace PanelLayout.Expression

/-! ## §1 Braces that count -/

/-- No backslash stands directly behind another. -/
def Undoubled (cs : List Char) : Prop := cs.IsChain fun c d => ¬(c = '\\' ∧ d = '\\')

instance (cs : List Char) : Decidable (Undoubled cs) :=
  inferInstanceAs (Decidable (cs.IsChain _))

theorem Undoubled.of_infix {cs ds : List Char} (h : Undoubled ds) (hwithin : cs <:+: ds) :
    Undoubled cs :=
  List.IsChain.infix h hwithin

theorem Undoubled.tail {c : Char} {cs : List Char} (h : Undoubled (c :: cs)) : Undoubled cs :=
  List.IsChain.tail h

theorem Undoubled.ne_backslash {c : Char} {cs : List Char} (h : Undoubled ('\\' :: c :: cs)) :
    c ≠ '\\' :=
  fun hc => List.IsChain.rel h ⟨rfl, hc⟩

/-- What the characters of a text behind `before` add to the number of open braces, one by one. -/
def weights (before : Option Char) : List Char → List Int
  | [] => []
  | c :: rest => weight before c :: weights (some c) rest

theorem weights_of_ne_backslash {before : Option Char} (h : before ≠ some '\\')
    (cs : List Char) : weights before cs = weights none cs := by
  cases cs with
  | nil => rfl
  | cons c rest => simp [weights, weight, h]

theorem weights_behind {c : Char} (h : c ≠ '\\') (cs : List Char) :
    weights (some c) cs = weights none cs := by
  apply weights_of_ne_backslash
  simpa using h

theorem weights_append (before : Option Char) (cs ds : List Char) :
    weights before (cs ++ ds) = weights before cs ++ weights (lastOf before cs) ds := by
  induction cs generalizing before with
  | nil => rfl
  | cons c cs ih => rw [List.cons_append, weights, ih, lastOf_cons, weights, List.cons_append]

theorem sum_weights (before : Option Char) (cs : List Char) :
    (weights before cs).sum = surplus before cs := by
  induction cs generalizing before with
  | nil => rfl
  | cons c cs ih => rw [weights, List.sum_cons, ih, surplus]

/-- The first weights of a text are the weights of what it begins with. -/
theorem exists_prefix_of_prefix_weights {before : Option Char} {cs : List Char}
    {front : List Int} (h : front <+: weights before cs) :
    ∃ text, text <+: cs ∧ weights before text = front := by
  induction cs generalizing before front with
  | nil => exact ⟨[], List.prefix_refl [], (List.prefix_nil.1 h).symm⟩
  | cons c cs ih =>
    rcases List.prefix_cons_iff.1 h with rfl | ⟨more, rfl, hmore⟩
    · exact ⟨[], List.nil_prefix, rfl⟩
    · obtain ⟨text, htext, rfl⟩ := ih hmore
      exact ⟨c :: text, (List.prefix_cons_inj c).2 htext, rfl⟩

theorem weights_nonpos {before : Option Char} {cs : List Char} (h : NoOpening before cs) :
    ∀ step ∈ weights before cs, step ≤ 0 := by
  induction cs generalizing before with
  | nil => simp [weights]
  | cons c cs ih =>
    obtain ⟨hc, hcs⟩ := noOpening_cons_iff.1 h
    intro step hstep
    rcases List.mem_cons.1 hstep with rfl | hstep
    · unfold weight
      split_ifs with hliteral hopen hclose
      · exact le_refl 0
      · exact absurd (hc hopen) hliteral
      · omega
      · exact le_refl 0
    · exact ih hcs step hstep

/-! ## §2 The two passes -/

theorem weight_of_not_brace {before : Option Char} {c : Char} (hopen : c ≠ '\x7b')
    (hclose : c ≠ '\x7d') : weight before c = 0 := by
  simp [weight, hopen, hclose]

/-- The pass for the depth counts the braces that count for the segments. -/
theorem depthFrom_eq_peakFrom_weights {depth deepest : Nat} {cs : List Char}
    (h : depth ≤ deepest) (hcs : Undoubled cs) :
    depthFrom depth deepest cs = peakFrom depth deepest (weights none cs) := by
  fun_induction depthFrom depth deepest cs with
  | case1 depth deepest => rfl
  | case2 depth deepest => exact (peakFrom_zero h []).symm
  | case3 depth deepest c rest ih =>
    -- The character behind the backslash is skipped here, and weighs nothing there.
    have hbackslash : weight none '\\' = 0 := rfl
    have hskipped : weight (some '\\') c = 0 := if_pos rfl
    rw [ih h hcs.tail.tail, weights, weights, weights_behind hcs.ne_backslash, hbackslash, hskipped,
      peakFrom_zero h, peakFrom_zero h]
  | case4 depth deepest rest ih =>
    rw [ih (by omega) hcs.tail, weights, weights_behind (by decide), weight_opening (by simp),
      peakFrom_opening]
  | case5 depth deepest rest ih =>
    rw [ih (by omega) hcs.tail, weights, weights_behind (by decide), weight_closing (by simp),
      peakFrom_closing h]
  | case6 depth deepest c rest hlast hescape hopen hclose ih =>
    have hne : c ≠ '\\' := ne_backslash_of_stays hlast hescape
    rw [ih h hcs.tail, weights, weights_behind hne, weight_of_not_brace hopen hclose,
      peakFrom_zero h]

/-- No brace is lost or made literal by dropping the backslashes of operators. -/
theorem depthFrom_unescapeOperators {depth deepest : Nat} {cs : List Char} (h : Undoubled cs) :
    depthFrom depth deepest (unescapeOperators cs) = depthFrom depth deepest cs := by
  -- Along the pass for the depth, which takes a backslash and the character behind it at once.
  fun_induction depthFrom depth deepest cs with
  | case1 depth deepest => rfl
  | case2 depth deepest => rfl
  | case3 depth deepest c rest ih =>
    have hc : c ≠ '\\' := h.ne_backslash
    rw [unescapeOperators]
    split
    · rename_i hescapable
      obtain ⟨hopen, hclose⟩ := not_brace_of_isEscapable hescapable
      rw [depthFrom_cons hc hopen hclose, ih h.tail.tail]
    · rw [unescapeOperators_cons hc, depthFrom, ih h.tail.tail]
  | case4 depth deepest rest ih => rw [unescapeOperators_cons (by decide), depthFrom, ih h.tail]
  | case5 depth deepest rest ih => rw [unescapeOperators_cons (by decide), depthFrom, ih h.tail]
  | case6 depth deepest c rest hlast hescape hopen hclose ih =>
    have hne : c ≠ '\\' := ne_backslash_of_stays hlast hescape
    rw [unescapeOperators_cons hne, depthFrom_cons hne hopen hclose, ih h.tail]

/-! ## §3 The count over the parts of a text -/

theorem le_peakFrom (level highest : Nat) (steps : List Int) :
    highest ≤ peakFrom level highest steps := by
  induction steps generalizing level highest with
  | nil => exact le_refl highest
  | cons step steps ih => exact le_trans (le_max_left highest _) (ih _ _)

/-- Where nothing opens, nothing is reached. -/
theorem peakFrom_of_nonpos {steps : List Int} (h : ∀ step ∈ steps, step ≤ 0) (highest : Nat)
    (more : List Int) : peakFrom 0 highest (steps ++ more) = peakFrom 0 highest more := by
  induction steps with
  | nil => rfl
  | cons step steps ih =>
    obtain ⟨hstep, hsteps⟩ := List.forall_mem_cons.1 h
    have hnext : (((0 : Nat) : Int) + step).toNat = 0 := by omega
    rw [List.cons_append, peakFrom, hnext]
    simpa using ih hsteps

/-- Where the level does not fall below zero, it can begin one higher, and everything is one
higher. -/
theorem peakFrom_raise {level lower highest : Nat} {steps : List Int}
    (h : ∀ front, front <+: steps → 0 ≤ (level : Int) + front.sum) (hlower : lower + 1 ≤ highest)
    (more : List Int) :
    peakFrom (level + 1) highest (steps ++ more) =
      peakFrom (((level : Int) + steps.sum).toNat + 1)
        (max highest (peakFrom level lower steps + 1)) more := by
  induction steps generalizing level lower highest with
  | nil => simp [peakFrom, hlower]
  | cons step steps ih =>
    have hstep : 0 ≤ (level : Int) + step := by
      simpa using h [step] (by simp)
    obtain ⟨next, hnext⟩ := Int.eq_ofNat_of_zero_le hstep
    have hlevel : ((level : Int) + step).toNat = next := by omega
    have hraised : ((level + 1 : Nat) + step : Int).toNat = next + 1 := by omega
    have htail : ∀ front, front <+: steps → 0 ≤ (next : Int) + front.sum := by
      intro front hfront
      have hprefix := h (step :: front) ((List.prefix_cons_inj step).2 hfront)
      rw [List.sum_cons] at hprefix
      omega
    have hreached : max lower next + 1 ≤ max highest (next + 1) := by omega
    have hpeak := le_peakFrom next (max lower next) steps
    rw [List.cons_append, peakFrom, hraised, peakFrom, hlevel, List.sum_cons, ih htail hreached,
      ← add_assoc, hnext]
    congr 1
    omega

theorem weights_part {before : Option Char} (hbefore : before ≠ some '\\') {part : Part}
    (h : part.IsOutermost) (rest : List Char) :
    weights before (part.text ++ rest) =
      weights before part.gap ++ 1 :: (weights none part.inside ++ -1 :: weights none rest) := by
  have hopening : lastOf before part.gap ≠ some '\\' := lastOf_ne_backslash hbefore h.opening
  have hclosing : lastOf none part.inside ≠ some '\\' := by
    rw [lastOf_none]
    exact h.closing
  rw [Part.text_append, weights_append, weights, weight_opening hopening,
    weights_behind (by decide), weights_append, weights, weight_closing hclosing,
    weights_behind (by decide)]

/-- A segment is counted one level deeper than by itself. -/
theorem peakFrom_part {before : Option Char} (hbefore : before ≠ some '\\') {part : Part}
    (h : part.IsOutermost) (highest : Nat) (rest : List Char) :
    peakFrom 0 highest (weights before (part.text ++ rest)) =
      peakFrom 0 (max highest (peakFrom 0 0 (weights none part.inside) + 1))
        (weights none rest) := by
  have hgap := weights_nonpos (h.gap.behind before)
  have hinside : ∀ front, front <+: weights none part.inside →
      0 ≤ ((0 : Nat) : Int) + front.sum := by
    intro front hfront
    obtain ⟨text, htext, rfl⟩ := exists_prefix_of_prefix_weights hfront
    have hprefix := h.inside.prefixes text htext
    rw [sum_weights]
    omega
  have htotal : (((0 : Nat) : Int) + (weights none part.inside).sum).toNat = 0 := by
    rw [sum_weights, h.inside.total]
    rfl
  have hhighest : 0 + 1 ≤ max highest (0 + 1) := le_max_right _ _
  rw [weights_part hbefore h, peakFrom_of_nonpos hgap, peakFrom_opening,
    peakFrom_raise hinside hhighest, htotal, peakFrom_closing (by omega)]
  congr 1
  omega

/-- The count over all parts reaches the greatest of what it reaches over each of them. -/
theorem peakFrom_parts {before : Option Char} (hbefore : before ≠ some '\\') {parts : List Part}
    (h : ∀ part ∈ parts, part.IsOutermost) (highest : Nat) (rest : List Char) :
    peakFrom 0 highest (weights before (parts.flatMap Part.text ++ rest)) =
      peakFrom 0 (max highest ((parts.map fun part =>
        peakFrom 0 0 (weights none part.inside) + 1).foldr max 0)) (weights none rest) := by
  induction parts generalizing before highest with
  | nil => simp [weights_of_ne_backslash hbefore]
  | cons part parts ih =>
    obtain ⟨hpart, hparts⟩ := List.forall_mem_cons.1 h
    have hnone : (none : Option Char) ≠ some '\\' := by simp
    rw [List.flatMap_cons, List.append_assoc, peakFrom_part hbefore hpart, ih hnone hparts,
      max_assoc, List.map_cons, List.foldr_cons]

theorem Division.inside_infix {division : Division} {part : Part} (h : part ∈ division.parts) :
    part.inside <:+: division.text := by
  obtain ⟨front, back, hparts⟩ := List.append_of_mem h
  refine ⟨front.flatMap Part.text ++ part.gap ++ ['\x7b'],
    '\x7d' :: (back.flatMap Part.text ++ division.rest), ?_⟩
  simp [Division.text, hparts, Part.text]

/-! ## §4 Braces that stand in a segment -/

/-- At this place an opening brace counts. -/
def OpensAt (cs : List Char) (i : Nat) : Prop :=
  cs[i]? = some '\x7b' ∧ (cs.take i).getLast? ≠ some '\\'

instance (cs : List Char) (i : Nat) : Decidable (OpensAt cs i) :=
  inferInstanceAs (Decidable (_ ∧ _))

/-- Every opening brace that counts stands in a segment, to which the braces around it belong. -/
def OpensInSegments (cs : List Char) : Prop :=
  ∀ i < cs.length, OpensAt cs i → ∃ span ∈ spans cs, span.1 ≤ i + 1 ∧ i ≤ span.2

instance (cs : List Char) : Decidable (OpensInSegments cs) :=
  inferInstanceAs (Decidable (∀ i < cs.length, OpensAt cs i → _))

theorem length_spans (cs : List Char) : (spans cs).length = (rawSegments cs).length := by
  rw [rawSegments_eq_map_slice, List.length_map]

/-- What is found in a text is found in what it begins with, or behind. -/
theorem prefix_spansFrom_append (before : Option Char) (depth start index : Nat)
    (cs ds : List Char) :
    spansFrom before depth start index cs <+: spansFrom before depth start index (cs ++ ds) := by
  induction cs generalizing before depth start index with
  | nil => exact List.nil_prefix
  | cons c cs ih =>
    rw [List.cons_append, spansFrom, spansFrom]
    split_ifs
    · exact ih ..
    · exact ih ..
    · exact (List.prefix_cons_inj _).2 (ih ..)
    · exact ih ..
    · exact ih ..

theorem lastOf_parts {before : Option Char} (hbefore : before ≠ some '\\') (parts : List Part) :
    lastOf before (parts.flatMap Part.text) ≠ some '\\' := by
  induction parts generalizing before with
  | nil => exact hbefore
  | cons part parts ih =>
    have hpart : lastOf before part.text = some '\x7d' := by
      simp [Part.text, lastOf_append]
    rw [List.flatMap_cons, lastOf_append, hpart]
    apply ih
    decide

namespace Division

variable {division : Division}

/-- The segments stand in the parts. -/
theorem spans_text (h : division.IsOutermost) :
    spans division.text = spans (division.parts.flatMap Part.text) := by
  have hclosed : IsOutermost ⟨division.parts, []⟩ := ⟨h.parts, .inl (noOpening_nil none)⟩
  have hsegments : rawSegments (division.parts.flatMap Part.text) = rawSegments division.text := by
    rw [rawSegments_text h, ← rawSegments_text hclosed]
    simp [text]
  have hfront := prefix_spansFrom_append none 0 0 0 (division.parts.flatMap Part.text) division.rest
  apply (hfront.eq_of_length _).symm
  show (spans _).length = (spans _).length
  rw [length_spans, hsegments, ← length_spans]
  rfl

theorem span_lt_of_mem (h : division.IsOutermost) {span : Nat × Nat}
    (hspan : span ∈ spans division.text) :
    span.2 < (division.parts.flatMap Part.text).length := by
  rw [spans_text h] at hspan
  have hbounds := span_le_of_mem_spansFrom (fun hdepth => absurd hdepth (lt_irrefl 0)) hspan
  omega

/-- What opens behind the last segment is in none. -/
theorem noOpening_rest (h : division.IsOutermost) (hopens : OpensInSegments division.text) :
    NoOpening none division.rest := by
  rcases h.rest with hnone | ⟨gap, inside, hrest, -, hlast, -⟩
  · exact hnone
  · exfalso
    have htext : division.text =
        (division.parts.flatMap Part.text ++ gap) ++ '\x7b' :: inside := by
      rw [text, hrest, List.append_assoc]
    have hopensAt : OpensAt division.text (division.parts.flatMap Part.text ++ gap).length := by
      constructor
      · simp [htext]
      · rw [htext, List.take_left, ← lastOf_none, lastOf_append]
        exact lastOf_ne_backslash (lastOf_parts (by simp) _) hlast
    have hlength : (division.parts.flatMap Part.text ++ gap).length < division.text.length := by
      simp [htext]
    obtain ⟨span, hspan, -, hle⟩ := hopens _ hlength hopensAt
    have hlt := span_lt_of_mem h hspan
    rw [List.length_append] at hle
    omega

end Division

/-! ## §5 The depth of a text and of its segments -/

/-- If no backslash stands directly behind another, each segment is nested less deep than the text,
so that a text with segments has a depth; and if all that opens stands in segments, the text is
nested one level deeper than the deepest of them. -/
theorem nestingDepth_segments (s : String) (h : Undoubled s.toList) :
    (∀ segment ∈ segments s, nestingDepth segment + 1 ≤ nestingDepth s) ∧
    (segments s ≠ [] → 1 ≤ nestingDepth s) ∧
    (OpensInSegments s.toList →
      nestingDepth s = ((segments s).map (nestingDepth · + 1)).foldr max 0) := by
  obtain ⟨division, htext, hdivision⟩ := Division.exists_outermost s.toList
  have hdepth : nestingDepth s = peakFrom 0 (max 0 ((division.parts.map fun part =>
      peakFrom 0 0 (weights none part.inside) + 1).foldr max 0)) (weights none division.rest) := by
    rw [nestingDepth, depthFrom_eq_peakFrom_weights (le_refl 0) h, ← htext, Division.text,
      peakFrom_parts (by simp) hdivision.parts]
  have hsegments : (segments s).map (nestingDepth · + 1) =
      division.parts.map fun part => peakFrom 0 0 (weights none part.inside) + 1 := by
    rw [segments, ← htext, Division.rawSegments_text hdivision, List.map_map, List.map_map]
    apply List.map_congr_left
    intro part hpart
    have hinside : Undoubled part.inside :=
      h.of_infix (htext ▸ Division.inside_infix hpart)
    show nestingDepth (String.ofList (unescapeOperators part.inside)) + 1 = _
    rw [nestingDepth_ofList, depthFrom_unescapeOperators hinside,
      depthFrom_eq_peakFrom_weights (le_refl 0) hinside]
  rw [← hsegments] at hdepth
  have heach : ∀ segment ∈ segments s, nestingDepth segment + 1 ≤ nestingDepth s := by
    intro segment hsegment
    have hmem : nestingDepth segment + 1 ∈ (segments s).map (nestingDepth · + 1) :=
      List.mem_map_of_mem hsegment
    calc nestingDepth segment + 1
        ≤ ((segments s).map (nestingDepth · + 1)).foldr max 0 :=
          List.le_max_of_le' 0 hmem (le_refl _)
      _ ≤ max 0 (((segments s).map (nestingDepth · + 1)).foldr max 0) := le_max_right _ _
      _ ≤ nestingDepth s := by
          rw [hdepth]
          exact le_peakFrom ..
  refine ⟨heach, ?_, ?_⟩
  · intro hne
    obtain ⟨segment, hsegment⟩ := List.exists_mem_of_ne_nil _ hne
    have hle := heach segment hsegment
    omega
  · intro hopens
    rw [← htext] at hopens
    have hnothing := peakFrom_of_nonpos (weights_nonpos (Division.noOpening_rest hdivision hopens))
      (max 0 (((segments s).map (nestingDepth · + 1)).foldr max 0)) []
    rw [List.append_nil] at hnothing
    rw [hdepth, hnothing, peakFrom, Nat.zero_max]

/-- A literal opening brace with a stray closing one behind it, and two segments. -/
def nestedSum : String := "\\\x7b\x7d \x7ba\\+\x7bb\x7d\x7d \x7bc\x7d"

theorem nestingDepth_nestedSum :
    Undoubled nestedSum.toList ∧ OpensInSegments nestedSum.toList ∧
      (∀ segment ∈ ["a+\x7bb\x7d", "c"], nestingDepth segment + 1 ≤ nestingDepth nestedSum) ∧
      nestingDepth nestedSum = 2 := by
  have hundoubled : Undoubled nestedSum.toList := by decide
  have hopens : OpensInSegments nestedSum.toList := by decide
  have hsegments : segments nestedSum = ["a+\x7bb\x7d", "c"] := by decide
  have hgreatest : (["a+\x7bb\x7d", "c"].map (nestingDepth · + 1)).foldr max 0 = 2 := by decide
  obtain ⟨heach, -, hdepth⟩ := nestingDepth_segments nestedSum hundoubled
  rw [hsegments] at heach hdepth
  exact ⟨hundoubled, hopens, heach, (hdepth hopens).trans hgreatest⟩

end PanelLayout.Expression
