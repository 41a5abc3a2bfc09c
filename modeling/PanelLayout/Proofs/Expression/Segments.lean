import Mathlib.Algebra.Order.Ring.Int
import PanelLayout.Expression.Braces

/-!
# The outermost segments of an expression

The segments of an expression are found in one pass that counts the open braces.  Here they are
described without the pass: a text is divided into gaps and segments,

  `gap \x7b segment \x7d gap \x7b segment \x7d … rest`

so that no opening brace counts within a gap, the braces of a segment are balanced, and what opens in
the rest is never closed.  A brace behind a backslash is literal and does not count.

* `Division.IsOutermost` is that description, and `surplus` the count behind it.
* `Division.exists_outermost` and `Division.unique_outermost` say that there is one such division of
  every text, and `Division.rawSegments_text` that the pass finds its segments.
* `rawSegments_eq_map_slice` tells where the segments stand in the text.

`existsUnique_division` puts them together.
-/

namespace PanelLayout.Expression

/-! ## §1 Counting braces -/

/-- What a character behind `before` adds to the number of open braces. -/
def weight (before : Option Char) (c : Char) : Int :=
  if before = some '\\' then 0 else if c = '\x7b' then 1 else if c = '\x7d' then -1 else 0

/-- How many more braces a text behind `before` opens than it closes, literal ones aside. -/
def surplus (before : Option Char) : List Char → Int
  | [] => 0
  | c :: rest => weight before c + surplus (some c) rest

/-- The character before what follows a text that stands behind `before`. -/
def lastOf (before : Option Char) (cs : List Char) : Option Char := cs.getLast?.or before

@[simp] theorem lastOf_nil (before : Option Char) : lastOf before [] = before := rfl

@[simp] theorem lastOf_none (cs : List Char) : lastOf none cs = cs.getLast? := Option.or_none

@[simp] theorem lastOf_cons (before : Option Char) (c : Char) (cs : List Char) :
    lastOf before (c :: cs) = lastOf (some c) cs := by
  cases h : cs.getLast? <;> simp [lastOf, List.getLast?_cons, h]

theorem lastOf_append (before : Option Char) (cs ds : List Char) :
    lastOf before (cs ++ ds) = lastOf (lastOf before cs) ds := by
  induction cs generalizing before with
  | nil => rfl
  | cons c cs ih => rw [List.cons_append, lastOf_cons, ih, lastOf_cons]

/-- Behind a brace stands what would stand behind nothing. -/
theorem lastOf_ne_backslash {before : Option Char} {cs : List Char} (hbefore : before ≠ some '\\')
    (h : cs.getLast? ≠ some '\\') : lastOf before cs ≠ some '\\' := by
  cases hlast : cs.getLast? <;> simp_all [lastOf]

theorem surplus_append (before : Option Char) (cs ds : List Char) :
    surplus before (cs ++ ds) = surplus before cs + surplus (lastOf before cs) ds := by
  induction cs generalizing before with
  | nil => simp [surplus]
  | cons c cs ih => rw [List.cons_append, surplus, surplus, ih, lastOf_cons, add_assoc]

theorem weight_opening {before : Option Char} (h : before ≠ some '\\') : weight before '\x7b' = 1 := by
  simp [weight, h]

theorem weight_closing {before : Option Char} (h : before ≠ some '\\') :
    weight before '\x7d' = -1 := by
  simp [weight, h]

/-- Only a backslash before a text makes a difference to it. -/
theorem surplus_of_ne_backslash {before : Option Char} (h : before ≠ some '\\') (cs : List Char) :
    surplus before cs = surplus none cs := by
  cases cs with
  | nil => rfl
  | cons c rest => simp [surplus, weight, h]

/-- No opening brace of a text behind `before` counts. -/
def NoOpening (before : Option Char) (cs : List Char) : Prop :=
  ∀ front back, cs = front ++ '\x7b' :: back → lastOf before front = some '\\'

theorem noOpening_nil (before : Option Char) : NoOpening before [] := by
  intro front back h
  simp at h

theorem noOpening_cons_iff {before : Option Char} {c : Char} {rest : List Char} :
    NoOpening before (c :: rest) ↔
      (c = '\x7b' → before = some '\\') ∧ NoOpening (some c) rest := by
  constructor
  · intro h
    refine ⟨fun hc => h [] rest (by rw [hc]; rfl), fun front back hrest => ?_⟩
    rw [← lastOf_cons before]
    exact h (c :: front) back (by rw [hrest]; rfl)
  · rintro ⟨hc, hrest⟩ front back h
    cases front with
    | nil =>
      obtain ⟨hbrace, -⟩ := List.cons.inj h
      exact hc hbrace
    | cons d front =>
      obtain ⟨rfl, htail⟩ := List.cons.inj h
      rw [lastOf_cons]
      exact hrest front back htail

/-- A brace at the beginning would count behind nothing, so there is none. -/
theorem NoOpening.behind (before : Option Char) {cs : List Char} (h : NoOpening none cs) :
    NoOpening before cs := by
  cases cs with
  | nil => exact noOpening_nil before
  | cons c rest =>
    obtain ⟨hc, hrest⟩ := noOpening_cons_iff.1 h
    exact noOpening_cons_iff.2 ⟨fun hbrace => absurd (hc hbrace) (by simp), hrest⟩

/-- At no point of the text are more braces closed than opened, and in the end all are closed. -/
structure Balanced (cs : List Char) : Prop where
  prefixes : ∀ front, front <+: cs → 0 ≤ surplus none front
  total : surplus none cs = 0

/-- What opens first is never closed, if anything opens at all. -/
def Unclosed (cs : List Char) : Prop :=
  NoOpening none cs ∨
    ∃ gap inside, cs = gap ++ '\x7b' :: inside ∧ NoOpening none gap ∧ gap.getLast? ≠ some '\\' ∧
      ∀ front, front <+: '\x7b' :: inside → front ≠ [] → 0 < surplus none front

/-! ## §2 Divisions -/

/-- A gap and the segment behind it. -/
structure Part where
  gap : List Char
  inside : List Char

/-- A text divided into gaps with the segments behind them, and a rest. -/
structure Division where
  parts : List Part
  rest : List Char

namespace Part

/-- The text of a part, in which braces enclose the segment. -/
def text (part : Part) : List Char := part.gap ++ '\x7b' :: (part.inside ++ ['\x7d'])

/-- The first brace that counts is the one before the segment, and the one behind the segment closes
it.  A part begins behind a brace or with the text, so what stands before it is no backslash. -/
structure IsOutermost (part : Part) : Prop where
  gap : NoOpening none part.gap
  opening : part.gap.getLast? ≠ some '\\'
  inside : Balanced part.inside
  closing : part.inside.getLast? ≠ some '\\'

end Part

namespace Division

def text (division : Division) : List Char := division.parts.flatMap Part.text ++ division.rest

/-- The segments are the outermost ones that are closed. -/
structure IsOutermost (division : Division) : Prop where
  parts : ∀ part ∈ division.parts, part.IsOutermost
  rest : Unclosed division.rest

end Division

/-! ## §3 What the pass finds -/

/-- The pass goes over a gap. -/
theorem segmentsFrom_gap {before : Option Char} {gap : List Char} (h : NoOpening before gap)
    (rest : List Char) :
    segmentsFrom before 0 [] (gap ++ rest) = segmentsFrom (lastOf before gap) 0 [] rest := by
  induction gap generalizing before with
  | nil => rfl
  | cons c gap ih =>
    obtain ⟨hc, hgap⟩ := noOpening_cons_iff.1 h
    have hcounts : ¬(c = '\x7b' ∧ ¬before = some '\\') := fun hboth => hboth.2 (hc hboth.1)
    rw [List.cons_append, segmentsFrom, if_neg hcounts, if_neg (by simp), if_pos rfl, ih hgap,
      lastOf_cons]

/-- Within braces a character is kept, unless it closes the outermost of them. -/
theorem segmentsFrom_cons_inside {before : Option Char} {depth : Nat} {c : Char}
    (hdepth : 0 < depth) (h : 0 < (depth : Int) + weight before c) (inside rest : List Char) :
    segmentsFrom before depth inside (c :: rest) =
      segmentsFrom (some c) (depth + weight before c).toNat (c :: inside) rest := by
  have hne : depth ≠ 0 := Nat.pos_iff_ne_zero.1 hdepth
  rw [segmentsFrom]
  -- A literal character and one that is no brace weigh nothing; a brace weighs what it does to the
  -- number of open ones.
  by_cases hliteral : before = some '\\'
  · have hweight : weight before c = 0 := by simp [weight, hliteral]
    rw [hweight]
    simp [hliteral, hne]
  · by_cases hopen : c = '\x7b'
    · have hweight : weight before c = 1 := by simp [weight, hliteral, hopen]
      have hnext : ((depth : Int) + 1).toNat = depth + 1 := by omega
      rw [hweight, hnext]
      simp [hliteral, hopen, hne]
    · by_cases hclose : c = '\x7d'
      · have hweight : weight before c = -1 := by simp [weight, hliteral, hclose]
        have hone : depth ≠ 1 := by omega
        have hnext : ((depth : Int) + -1).toNat = depth - 1 := by omega
        rw [hweight, hnext]
        simp [hliteral, hclose, hdepth, hone]
      · have hweight : weight before c = 0 := by simp [weight, hliteral, hopen, hclose]
        simp [hopen, hclose, hweight, hne]

/-- The pass keeps a text within braces as long as the outermost of them stays open. -/
theorem segmentsFrom_inside {before : Option Char} {depth : Nat} {cs : List Char}
    (h : ∀ front, front <+: cs → 0 < (depth : Int) + surplus before front)
    (inside rest : List Char) :
    segmentsFrom before depth inside (cs ++ rest) =
      segmentsFrom (lastOf before cs) (depth + surplus before cs).toNat (cs.reverse ++ inside)
        rest := by
  -- With each character the depth moves by its weight, which the hypothesis keeps above zero.
  induction cs generalizing before depth inside with
  | nil => simp [surplus]
  | cons c cs ih =>
    have hdepth : 0 < depth := by simpa [surplus] using h [] (List.nil_prefix)
    have hc : 0 < (depth : Int) + weight before c := by
      simpa [surplus] using h [c] (by simp)
    have hnext : (((depth : Int) + weight before c).toNat : Int) = depth + weight before c :=
      Int.toNat_of_nonneg (le_of_lt hc)
    rw [List.cons_append, segmentsFrom_cons_inside hdepth hc, ih, hnext, surplus, lastOf_cons,
      add_assoc, List.reverse_cons, List.append_assoc, List.singleton_append]
    intro front hfront
    have hprefix := h (c :: front) ((List.prefix_cons_inj c).2 hfront)
    rw [hnext]
    rw [surplus] at hprefix
    omega

theorem segmentsFrom_opening {before : Option Char} (h : before ≠ some '\\') (rest : List Char) :
    segmentsFrom before 0 [] ('\x7b' :: rest) = segmentsFrom (some '\x7b') 1 [] rest := by
  simp [segmentsFrom, h]

theorem segmentsFrom_closing {before : Option Char} (h : before ≠ some '\\')
    (inside rest : List Char) :
    segmentsFrom before 1 inside ('\x7d' :: rest) =
      inside.reverse :: segmentsFrom (some '\x7d') 0 [] rest := by
  simp [segmentsFrom, h]

/-- The pass finds the segment of a part and goes on behind it. -/
theorem segmentsFrom_part {before : Option Char} (hbefore : before ≠ some '\\') {part : Part}
    (h : part.IsOutermost) (rest : List Char) :
    segmentsFrom before 0 [] (part.text ++ rest) =
      part.inside :: segmentsFrom (some '\x7d') 0 [] rest := by
  obtain ⟨hgap, hopening, hinside, hclosing⟩ := h
  have hbrace : (some '\x7b' : Option Char) ≠ some '\\' := by decide
  -- Within the segment the brace before it is open, so the count never comes to zero.
  have hopen : ∀ front, front <+: part.inside → 0 < ((1 : Nat) : Int) + surplus (some '\x7b') front := by
    intro front hfront
    have hprefix := hinside.prefixes front hfront
    rw [surplus_of_ne_backslash hbrace]
    omega
  have htotal : (((1 : Nat) : Int) + surplus (some '\x7b') part.inside).toNat = 1 := by
    rw [surplus_of_ne_backslash hbrace, hinside.total]
    rfl
  calc segmentsFrom before 0 [] (part.text ++ rest)
      = segmentsFrom before 0 [] (part.gap ++ '\x7b' :: (part.inside ++ '\x7d' :: rest)) := by
        simp [Part.text]
    _ = segmentsFrom (some '\x7b') 1 [] (part.inside ++ '\x7d' :: rest) := by
        rw [segmentsFrom_gap (hgap.behind before),
          segmentsFrom_opening (lastOf_ne_backslash hbefore hopening)]
    _ = segmentsFrom (lastOf (some '\x7b') part.inside) 1 part.inside.reverse ('\x7d' :: rest) := by
        rw [segmentsFrom_inside hopen, htotal, List.append_nil]
    _ = part.inside :: segmentsFrom (some '\x7d') 0 [] rest := by
        rw [segmentsFrom_closing (lastOf_ne_backslash hbrace hclosing), List.reverse_reverse]

/-- The pass finds nothing in a rest. -/
theorem segmentsFrom_rest {before : Option Char} (hbefore : before ≠ some '\\') {cs : List Char}
    (h : Unclosed cs) : segmentsFrom before 0 [] cs = [] := by
  rcases h with h | ⟨gap, inside, rfl, hgap, hopening, hopen⟩
  · have hend := segmentsFrom_gap (h.behind before) []
    rwa [List.append_nil] at hend
  · -- What opens first stays open to the end.
    have hinside : ∀ front, front <+: inside → 0 < ((1 : Nat) : Int) + surplus (some '\x7b') front := by
      intro front hfront
      have hprefix := hopen ('\x7b' :: front) ((List.prefix_cons_inj _).2 hfront) (List.cons_ne_nil _ _)
      rwa [surplus, weight_opening (by simp)] at hprefix
    have hend := segmentsFrom_inside hinside [] []
    rw [List.append_nil, List.append_nil] at hend
    rw [segmentsFrom_gap (hgap.behind before),
      segmentsFrom_opening (lastOf_ne_backslash hbefore hopening), hend, segmentsFrom]

theorem segments_eq_nil_of_noOpening {s : String} (h : NoOpening none s.toList) :
    segments s = [] := by
  have hraw : rawSegments s.toList = [] := segmentsFrom_rest (by simp) (.inl h)
  rw [segments, hraw, List.map_nil]

namespace Division

theorem segmentsFrom_text {before : Option Char} (hbefore : before ≠ some '\\')
    {division : Division} (h : division.IsOutermost) :
    segmentsFrom before 0 [] division.text = division.parts.map Part.inside := by
  obtain ⟨parts, rest⟩ := division
  obtain ⟨hparts, hrest⟩ := h
  unfold text
  -- Behind each part stands a closing brace, so the character before is generalised.
  induction parts generalizing before with
  | nil => exact segmentsFrom_rest hbefore hrest
  | cons part parts ih =>
    obtain ⟨hpart, hparts⟩ := List.forall_mem_cons.1 hparts
    rw [List.flatMap_cons, List.append_assoc, segmentsFrom_part hbefore hpart,
      ih (by decide) hparts hrest, List.map_cons]

/-- The segments found are those of the division. -/
theorem rawSegments_text {division : Division} (h : division.IsOutermost) :
    rawSegments division.text = division.parts.map Part.inside :=
  segmentsFrom_text (by simp) h

end Division

/-! ## §4 Every text has a division -/

/-- A text has no opening brace that counts, or a first one. -/
theorem noOpening_or_first (before : Option Char) (cs : List Char) :
    NoOpening before cs ∨
      ∃ gap rest, cs = gap ++ '\x7b' :: rest ∧ NoOpening before gap ∧
        lastOf before gap ≠ some '\\' := by
  induction cs generalizing before with
  | nil => exact .inl (noOpening_nil before)
  | cons c cs ih =>
    by_cases hfirst : c = '\x7b' ∧ before ≠ some '\\'
    · obtain ⟨rfl, hbefore⟩ := hfirst
      exact .inr ⟨[], cs, rfl, noOpening_nil before, hbefore⟩
    · have hc : c = '\x7b' → before = some '\\' := by
        intro hbrace
        by_contra hne
        exact hfirst ⟨hbrace, hne⟩
      rcases ih (some c) with hcs | ⟨gap, rest, rfl, hgap, hlast⟩
      · exact .inl (noOpening_cons_iff.2 ⟨hc, hcs⟩)
      · refine .inr ⟨c :: gap, rest, rfl, noOpening_cons_iff.2 ⟨hc, hgap⟩, ?_⟩
        rwa [lastOf_cons]

/-- Behind some open braces the count stays positive, or there is a brace that closes the last. -/
theorem open_or_closing (before : Option Char) {depth : Int} (hdepth : 0 < depth)
    (cs : List Char) :
    (∀ front, front <+: cs → 0 < depth + surplus before front) ∨
      ∃ inside rest, cs = inside ++ '\x7d' :: rest ∧
        (∀ front, front <+: inside → 0 < depth + surplus before front) ∧
        depth + surplus before inside = 1 ∧ lastOf before inside ≠ some '\\' := by
  induction cs generalizing before depth with
  | nil =>
    refine .inl fun front hfront => ?_
    rw [List.prefix_nil.1 hfront, surplus]
    omega
  | cons c cs ih =>
    -- A prefix is empty, or it is the first character and a prefix of what follows.
    have hcons : ∀ {ds : List Char},
        (∀ front, front <+: ds → 0 < depth + weight before c + surplus (some c) front) →
          ∀ front, front <+: c :: ds → 0 < depth + surplus before front := by
      intro ds hds front hfront
      rcases List.prefix_cons_iff.1 hfront with rfl | ⟨front, rfl, htail⟩
      · rw [surplus]
        omega
      · have hpositive := hds front htail
        rw [surplus]
        omega
    by_cases hnext : 0 < depth + weight before c
    · rcases ih (some c) hnext with hopen | ⟨inside, rest, rfl, hinside, htotal, hlast⟩
      · exact .inl (hcons hopen)
      · refine .inr ⟨c :: inside, rest, rfl, hcons hinside, ?_, by rwa [lastOf_cons]⟩
        rw [surplus]
        omega
    · -- Only a closing brace that counts takes one away, and only the last open one can go.
      have hclosing : c = '\x7d' ∧ before ≠ some '\\' ∧ depth = 1 := by
        unfold weight at hnext
        split_ifs at hnext with hliteral hopen hclose <;>
          first | omega | exact ⟨hclose, hliteral, by omega⟩
      obtain ⟨rfl, hbefore, rfl⟩ := hclosing
      refine .inr ⟨[], cs, rfl, fun front hfront => ?_, ?_, hbefore⟩
      · rw [List.prefix_nil.1 hfront, surplus]
        omega
      · rw [surplus, add_zero]

/-- A text has an unclosed rest only, or begins with a part. -/
theorem unclosed_or_part (cs : List Char) :
    Unclosed cs ∨ ∃ part rest, cs = Part.text part ++ rest ∧ part.IsOutermost := by
  rcases noOpening_or_first none cs with hnone | ⟨gap, tail, rfl, hgap, hopening⟩
  · exact .inl (.inl hnone)
  · rw [lastOf_none] at hopening
    have hbrace : (some '\x7b' : Option Char) ≠ some '\\' := by decide
    have hone : weight none '\x7b' = 1 := weight_opening (by simp)
    rcases open_or_closing (some '\x7b') one_pos tail with
      hopen | ⟨inside, rest, rfl, hinside, htotal, hclosing⟩
    · refine .inl (.inr ⟨gap, tail, rfl, hgap, hopening, fun front hfront hne => ?_⟩)
      rcases List.prefix_cons_iff.1 hfront with rfl | ⟨front, rfl, htail⟩
      · exact absurd rfl hne
      · rw [surplus, hone]
        exact hopen front htail
    · refine .inr ⟨⟨gap, inside⟩, rest, by simp [Part.text], hgap, hopening, ⟨?_, ?_⟩, ?_⟩
      · intro front hfront
        have hpositive := hinside front hfront
        rw [surplus_of_ne_backslash hbrace] at hpositive
        omega
      · rw [surplus_of_ne_backslash hbrace] at htotal
        show surplus none inside = 0
        omega
      · intro hlast
        exact hclosing (by rw [lastOf, hlast]; rfl)

theorem Part.length_text_pos (part : Part) : 0 < part.text.length := by
  simp only [Part.text, List.length_append, List.length_cons]
  omega

namespace Division

theorem exists_outermost (cs : List Char) :
    ∃ division : Division, division.text = cs ∧ division.IsOutermost := by
  -- Behind each part the text is shorter.
  induction hlength : cs.length using Nat.strong_induction_on generalizing cs with
  | h length ih =>
  rcases unclosed_or_part cs with hrest | ⟨part, rest, rfl, hpart⟩
  · exact ⟨⟨[], cs⟩, rfl, by simp, hrest⟩
  · have hshorter : rest.length < length := by
      have hpos := part.length_text_pos
      rw [List.length_append] at hlength
      omega
    obtain ⟨division, rfl, hdivision⟩ := ih rest.length hshorter rest rfl
    refine ⟨⟨part :: division.parts, division.rest⟩, ?_, ?_, hdivision.rest⟩
    · simp [text]
    · exact List.forall_mem_cons.2 ⟨hpart, hdivision.parts⟩

end Division

/-! ## §5 No text has two divisions -/

/-- The first opening brace that counts is at one place only. -/
theorem gap_unique {gap gap' tail tail' : List Char} (hgap : NoOpening none gap)
    (hgap' : NoOpening none gap') (hlast : gap.getLast? ≠ some '\\')
    (hlast' : gap'.getLast? ≠ some '\\') (h : gap ++ '\x7b' :: tail = gap' ++ '\x7b' :: tail') :
    gap = gap' ∧ tail = tail' := by
  -- If one gap were longer, it would contain the opening brace behind the other.
  rcases List.append_eq_append_iff.1 h with ⟨more, rfl, hmore⟩ | ⟨more, rfl, hmore⟩
  · cases more with
    | nil => exact ⟨(List.append_nil gap).symm, (List.cons.inj hmore).2⟩
    | cons c more =>
      obtain ⟨rfl, -⟩ := List.cons.inj hmore
      exact absurd (lastOf_none gap ▸ hgap' gap more rfl) hlast
  · cases more with
    | nil => exact ⟨List.append_nil gap', (List.cons.inj hmore).2.symm⟩
    | cons c more =>
      obtain ⟨rfl, -⟩ := List.cons.inj hmore
      exact absurd (lastOf_none gap' ▸ hgap gap' more rfl) hlast'

/-- A balanced text does not go on behind a brace that closes more than it opened. -/
theorem Balanced.not_closed {cs rest : List Char} (h : Balanced (cs ++ '\x7d' :: rest))
    (htotal : surplus none cs = 0) (hlast : cs.getLast? ≠ some '\\') : False := by
  have hprefix : cs ++ ['\x7d'] <+: cs ++ '\x7d' :: rest := ⟨rest, by simp⟩
  have hnonneg := h.prefixes _ hprefix
  rw [surplus_append, htotal, lastOf_none, surplus, surplus, weight_closing hlast] at hnonneg
  omega

/-- The brace that closes a balanced text is at one place only. -/
theorem inside_unique {inside inside' tail tail' : List Char} (hinside : Balanced inside)
    (hinside' : Balanced inside') (hlast : inside.getLast? ≠ some '\\')
    (hlast' : inside'.getLast? ≠ some '\\')
    (h : inside ++ '\x7d' :: tail = inside' ++ '\x7d' :: tail') :
    inside = inside' ∧ tail = tail' := by
  -- If one were longer, it would go on behind the brace that closes the other.
  rcases List.append_eq_append_iff.1 h with ⟨more, rfl, hmore⟩ | ⟨more, rfl, hmore⟩
  · cases more with
    | nil => exact ⟨(List.append_nil inside).symm, (List.cons.inj hmore).2⟩
    | cons c more =>
      obtain ⟨rfl, -⟩ := List.cons.inj hmore
      exact (hinside'.not_closed hinside.total hlast).elim
  · cases more with
    | nil => exact ⟨List.append_nil inside', (List.cons.inj hmore).2.symm⟩
    | cons c more =>
      obtain ⟨rfl, -⟩ := List.cons.inj hmore
      exact (hinside.not_closed hinside'.total hlast').elim

theorem Part.text_append (part : Part) (rest : List Char) :
    part.text ++ rest = part.gap ++ '\x7b' :: (part.inside ++ '\x7d' :: rest) := by
  simp [Part.text]

theorem part_unique {part part' : Part} {rest rest' : List Char} (hpart : part.IsOutermost)
    (hpart' : part'.IsOutermost) (h : part.text ++ rest = part'.text ++ rest') :
    part = part' ∧ rest = rest' := by
  rw [Part.text_append, Part.text_append] at h
  obtain ⟨hgap, htail⟩ := gap_unique hpart.gap hpart'.gap hpart.opening hpart'.opening h
  obtain ⟨hinside, hrest⟩ :=
    inside_unique hpart.inside hpart'.inside hpart.closing hpart'.closing htail
  cases part
  cases part'
  exact ⟨by simp_all, hrest⟩

/-- What begins with a part is not unclosed. -/
theorem not_unclosed_part {part : Part} (hpart : part.IsOutermost) (rest : List Char) :
    ¬ Unclosed (part.text ++ rest) := by
  rw [Part.text_append]
  rintro (hnone | ⟨gap, inside, h, hgap, hlast, hopen⟩)
  · exact hpart.opening (lastOf_none part.gap ▸ hnone _ _ rfl)
  · obtain ⟨-, rfl⟩ := gap_unique hpart.gap hgap hpart.opening hlast h
    -- The braces of the segment itself are all closed in the end.
    have hprefix : '\x7b' :: (part.inside ++ ['\x7d']) <+: '\x7b' :: (part.inside ++ '\x7d' :: rest) :=
      ⟨rest, by simp⟩
    have hpositive := hopen _ hprefix (List.cons_ne_nil _ _)
    have hlastOf : lastOf (some '\x7b') part.inside ≠ some '\\' :=
      lastOf_ne_backslash (by decide) hpart.closing
    rw [surplus, surplus_append, surplus_of_ne_backslash (by decide), hpart.inside.total,
      weight_opening (by simp), surplus, surplus, weight_closing hlastOf] at hpositive
    omega

namespace Division

theorem unique_outermost {division other : Division} (hdivision : division.IsOutermost)
    (hother : other.IsOutermost) (h : division.text = other.text) : division = other := by
  obtain ⟨parts, rest⟩ := division
  obtain ⟨parts', rest'⟩ := other
  obtain ⟨hparts, hrest⟩ := hdivision
  obtain ⟨hparts', hrest'⟩ := hother
  simp only [text] at h hparts hrest hparts' hrest'
  -- Both begin with the same part, as long as one of them has parts.
  induction parts generalizing parts' with
  | nil =>
    cases parts' with
    | nil => simpa using h
    | cons part' parts' =>
      -- One division begins with a part and the other is all rest.
      rw [List.flatMap_cons, List.append_assoc, List.flatMap_nil, List.nil_append] at h
      exact (not_unclosed_part (List.forall_mem_cons.1 hparts').1 _ (h ▸ hrest)).elim
  | cons part parts ih =>
    obtain ⟨hpart, hmore⟩ := List.forall_mem_cons.1 hparts
    cases parts' with
    | nil =>
      rw [List.flatMap_cons, List.append_assoc, List.flatMap_nil, List.nil_append] at h
      exact (not_unclosed_part hpart _ (h ▸ hrest')).elim
    | cons part' parts' =>
      obtain ⟨hpart', hmore'⟩ := List.forall_mem_cons.1 hparts'
      rw [List.flatMap_cons, List.flatMap_cons, List.append_assoc, List.append_assoc] at h
      obtain ⟨rfl, htail⟩ := part_unique hpart hpart' h
      obtain ⟨rfl, rfl⟩ := Division.mk.inj (ih parts' htail hmore hmore')
      rfl

end Division

/-! ## §6 Where the segments stand -/

/-- Where the segments of a text stand: from the place behind the opening brace to that of the
closing one.  `start` is the place behind the brace that was opened first, and `index` the place that
is read. -/
def spansFrom (before : Option Char) (depth start index : Nat) : List Char → List (Nat × Nat)
  | [] => []
  | c :: rest =>
    let literal := before = some '\\'
    if c = '\x7b' ∧ ¬literal then
      -- Only the outermost brace moves the start.
      spansFrom (some c) (depth + 1) (if depth = 0 then index + 1 else start) (index + 1) rest
    else if c = '\x7d' ∧ ¬literal ∧ 0 < depth then
      if depth = 1 then (start, index) :: spansFrom (some c) 0 start (index + 1) rest
      else spansFrom (some c) (depth - 1) start (index + 1) rest
    else spansFrom (some c) depth start (index + 1) rest

def spans (cs : List Char) : List (Nat × Nat) := spansFrom none 0 0 0 cs

/-- The text from one place up to another. -/
def slice (cs : List Char) (span : Nat × Nat) : List Char := (cs.take span.2).drop span.1

/-- What is kept within braces is what was read since the outermost of them. -/
def KeptSince (start : Nat) (read : List Char) (depth : Nat) (inside : List Char) : Prop :=
  0 < depth → start ≤ read.length ∧ inside = (read.drop start).reverse

/-- One more character is kept. -/
theorem KeptSince.snoc {start depth : Nat} {read inside : List Char}
    (h : KeptSince start read depth inside) (hdepth : 0 < depth) (next : Nat) (c : Char) :
    KeptSince start (read ++ [c]) next (c :: inside) := by
  intro _
  obtain ⟨hstart, rfl⟩ := h hdepth
  refine ⟨?_, ?_⟩
  · rw [List.length_append]
    omega
  · rw [List.drop_append_of_le_length hstart, List.reverse_append, List.reverse_singleton,
      List.singleton_append]

/-- Nothing is kept yet behind the brace that was just opened. -/
theorem keptSince_length (read : List Char) (depth : Nat) :
    KeptSince read.length read depth [] :=
  fun _ => ⟨le_refl _, by rw [List.drop_length, List.reverse_nil]⟩

theorem keptSince_zero (start : Nat) (read inside : List Char) : KeptSince start read 0 inside :=
  fun h => absurd h (lt_irrefl 0)

/-- The segments are the slices of the text at their spans. -/
theorem segmentsFrom_eq_map_slice {before : Option Char} {depth start : Nat}
    {read inside : List Char} (h : KeptSince start read depth inside) (cs : List Char) :
    segmentsFrom before depth inside cs =
      (spansFrom before depth start read.length cs).map (slice (read ++ cs)) := by
  -- The induction is on what is still to be read; what was read only grows.
  induction cs generalizing before depth start read inside with
  | nil => rfl
  | cons c cs ih =>
    have hread : read ++ c :: cs = (read ++ [c]) ++ cs := by simp
    have hlength : read.length + 1 = (read ++ [c]).length := by simp
    rw [segmentsFrom, spansFrom, hread, hlength]
    by_cases hopen : c = '\x7b' ∧ ¬before = some '\\'
    · rw [if_pos hopen, if_pos hopen]
      -- An outermost brace begins a new segment, and one within braces belongs to the segment.
      rcases Nat.eq_zero_or_pos depth with rfl | hdepth
      · exact ih (keptSince_length _ _)
      · rw [if_neg hdepth.ne', if_neg hdepth.ne']
        exact ih (h.snoc hdepth _ c)
    · rw [if_neg hopen, if_neg hopen]
      by_cases hclose : c = '\x7d' ∧ ¬before = some '\\' ∧ 0 < depth
      · rw [if_pos hclose, if_pos hclose]
        by_cases hone : depth = 1
        · -- The last open brace is closed: what was kept is the slice.
          obtain ⟨-, hinside⟩ := h hclose.2.2
          rw [if_pos hone, if_pos hone, List.map_cons, ih (keptSince_zero start _ _), hinside,
            List.reverse_reverse, slice, List.append_assoc, List.take_left]
        · rw [if_neg hone, if_neg hone]
          exact ih (h.snoc hclose.2.2 _ c)
      · rw [if_neg hclose, if_neg hclose]
        rcases Nat.eq_zero_or_pos depth with rfl | hdepth
        · exact ih (keptSince_zero start _ _)
        · rw [if_neg hdepth.ne']
          exact ih (h.snoc hdepth _ c)

theorem rawSegments_eq_map_slice (cs : List Char) :
    rawSegments cs = (spans cs).map (slice cs) :=
  segmentsFrom_eq_map_slice (keptSince_zero 0 [] []) cs

/-- A span begins where the outermost brace was opened, or later, and ends within the text. -/
theorem span_le_of_mem_spansFrom {before : Option Char} {depth start index : Nat}
    {cs : List Char} {span : Nat × Nat} (h : 0 < depth → start ≤ index)
    (hspan : span ∈ spansFrom before depth start index cs) :
    span.1 ≤ span.2 ∧ span.2 < index + cs.length := by
  induction cs generalizing before depth start index with
  | nil => exact absurd hspan List.not_mem_nil
  | cons c cs ih =>
    have hnext : ∀ {before' depth' start'}, (0 < depth' → start' ≤ index + 1) →
        span ∈ spansFrom before' depth' start' (index + 1) cs →
          span.1 ≤ span.2 ∧ span.2 < index + (c :: cs).length := by
      intro before' depth' start' hstart hmem
      have hbounds := ih hstart hmem
      rw [List.length_cons]
      omega
    rw [spansFrom] at hspan
    split_ifs at hspan with hopen hzero hclose hone
    · exact hnext (fun _ => le_refl _) hspan
    · exact hnext (by omega) hspan
    · rcases List.mem_cons.1 hspan with rfl | hspan
      · exact ⟨h hclose.2.2, by rw [List.length_cons]; omega⟩
      · exact hnext (by omega) hspan
    · exact hnext (by omega) hspan
    · exact hnext (by omega) hspan

/-! ## §7 The segments of an expression -/

/-- There is one division of a text into gaps, closed segments and a rest in which nothing closed
is left, its segments are those that are found, and each is the slice of the text at a span that
does not end before it starts. -/
theorem existsUnique_division (s : String) :
    ∃ division : Division,
      (∀ other : Division, (other.text = s.toList ∧ other.IsOutermost) ↔ other = division) ∧
      segments s =
        division.parts.map (fun part => String.ofList (unescapeOperators part.inside)) ∧
      rawSegments s.toList = (spans s.toList).map (slice s.toList) ∧
      ∀ span ∈ spans s.toList, span.1 ≤ span.2 ∧ span.2 < s.toList.length := by
  obtain ⟨division, htext, hdivision⟩ := Division.exists_outermost s.toList
  refine ⟨division, fun other => ⟨?_, ?_⟩, ?_, rawSegments_eq_map_slice s.toList, ?_⟩
  · rintro ⟨hother, houtermost⟩
    exact Division.unique_outermost houtermost hdivision (hother.trans htext.symm)
  · rintro rfl
    exact ⟨htext, hdivision⟩
  · rw [segments, ← htext, Division.rawSegments_text hdivision, List.map_map]
    rfl
  · intro span hspan
    have hbounds := span_le_of_mem_spansFrom (fun h => absurd h (lt_irrefl 0)) hspan
    rwa [Nat.zero_add] at hbounds

end PanelLayout.Expression
