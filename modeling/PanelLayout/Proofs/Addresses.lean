import PanelLayout.Violation

/-!
# The texts of locations

A location is told to the user as one text: the base of its address, a step for every index, and
the place at the node.  This module shows that nothing is lost on the way.

* `Place.IsPlain` is the condition on names: no dot and no opening bracket.
* `Location.eq_of_render_eq` says that two locations below the root with plain places have
  different texts unless they are one.
-/

namespace PanelLayout

/-! ## §1 Plain names -/

/-- A name that cannot be taken for a step or for two names. -/
def isPlainName (name : String) : Bool := !name.toList.contains '.' && !name.toList.contains '['

/-- A place whose name, if it has one, is plain. -/
def Place.IsPlain : Place → Prop
  | .node => True
  | .field name | .component name _ => isPlainName name

theorem dot_notMem_of_isPlainName {name : String} (h : isPlainName name) : '.' ∉ name.toList := by
  simp only [isPlainName, Bool.and_eq_true, Bool.not_eq_true', List.contains_eq_mem,
    decide_eq_false_iff_not] at h
  exact h.1

theorem bracket_notMem_of_isPlainName {name : String} (h : isPlainName name) :
    '[' ∉ name.toList := by
  simp only [isPlainName, Bool.and_eq_true, Bool.not_eq_true', List.contains_eq_mem,
    decide_eq_false_iff_not] at h
  exact h.2

/-! ## §2 Splitting at a mark -/

/-- What stands before the first mark, and what stands behind it, can be read off a text. -/
theorem append_mark_inj {α : Type} {mark : α} {before before' after after' : List α}
    (h : mark ∉ before) (h' : mark ∉ before')
    (heq : before ++ mark :: after = before' ++ mark :: after') :
    before = before' ∧ after = after' := by
  induction before generalizing before' with
  | nil =>
    cases before' with
    | nil => exact ⟨rfl, (List.cons.inj heq).2⟩
    | cons c rest =>
      have hc : mark = c := (List.cons.inj heq).1
      exact absurd (hc ▸ List.mem_cons_self ..) h'
  | cons c rest ih =>
    cases before' with
    | nil =>
      have hc : c = mark := (List.cons.inj heq).1
      exact absurd (hc ▸ List.mem_cons_self ..) h
    | cons c' rest' =>
      obtain ⟨hc, hrest⟩ := List.cons.inj heq
      obtain ⟨hbefore, hafter⟩ := ih (fun hm => h (List.mem_cons_of_mem _ hm))
        (fun hm => h' (List.mem_cons_of_mem _ hm)) hrest
      exact ⟨by rw [hc, hbefore], hafter⟩

/-! ## §3 Steps -/

namespace Address

/-- The way to a child is the way to the node and one step more. -/
theorem render_child (address : Address) (index : Nat) :
    (address.child index).render = address.render ++ renderStep index := by
  simp [render, child, String.join_append, String.join_cons, String.append_assoc]

theorem toList_renderStep (index : Nat) :
    (renderStep index).toList = ".children".toList ++ '[' :: (Nat.toDigits 10 index ++ [']']) := by
  simp [renderStep]

theorem bracket_notMem_toDigits (index : Nat) : ']' ∉ Nat.toDigits 10 index := by
  intro h
  have hdigit : (']' : Char).isDigit := Nat.isDigit_of_mem_toDigits (by decide) (by decide) h
  exact absurd hdigit (by decide)

theorem toDigits_inj {i j : Nat} (h : Nat.toDigits 10 i = Nat.toDigits 10 j) : i = j := by
  have hread : Nat.ofDigitChars 10 (Nat.toDigits 10 i) 0 =
      Nat.ofDigitChars 10 (Nat.toDigits 10 j) 0 := by rw [h]
  -- Reading the digits of a number gives the number back.
  rwa [Nat.ofDigitChars_ten_toDigits, Nat.ofDigitChars_ten_toDigits] at hread

/-- The first step can be read off a text, and what follows it. -/
theorem renderStep_append_inj {i j : Nat} {after after' : List Char}
    (h : (renderStep i).toList ++ after = (renderStep j).toList ++ after') :
    i = j ∧ after = after' := by
  simp only [toList_renderStep, List.append_assoc, List.cons_append, List.nil_append,
    List.append_cancel_left_eq, List.cons.injEq, true_and] at h
  -- The digits end at the first closing bracket, whatever follows.
  obtain ⟨hdigits, hafter⟩ :=
    append_mark_inj (bracket_notMem_toDigits i) (bracket_notMem_toDigits j) h
  exact ⟨toDigits_inj hdigits, hafter⟩

theorem toList_render (base : String) (steps : List Nat) :
    (render ⟨base, steps⟩).toList = base.toList ++ steps.flatMap fun i => (renderStep i).toList := by
  induction steps with
  | nil => simp [render]
  | cons i rest ih =>
    simp only [render, List.map_cons, String.join_cons, String.toList_append,
      List.flatMap_cons, List.append_cancel_left_eq] at ih ⊢
    exact ih

end Address

/-! ## §4 Places -/

namespace Place

theorem bracket_notMem_axis (axis : Axis) : '[' ∉ axis.name.toList := by
  cases axis <;> decide

/-- The text of a plain place has no opening bracket, so it is not taken for a step. -/
theorem bracket_notMem_render {place : Place} (h : place.IsPlain) : '[' ∉ place.render.toList := by
  cases place with
  | node => simp [render]
  | field name => simpa [render] using bracket_notMem_of_isPlainName h
  | component name axis =>
    simpa [render] using ⟨bracket_notMem_of_isPlainName h, bracket_notMem_axis axis⟩

theorem axis_eq_of_name_eq {a b : Axis} (h : a.name = b.name) : a = b := by
  cases a <;> cases b <;> first | rfl | exact absurd h (by decide)

/-- A plain name is not a plain name with an axis behind it. -/
theorem name_ne_component {name name' : String} {axis : Axis} (h : isPlainName name) :
    name.toList ≠ name'.toList ++ '.' :: axis.name.toList := by
  intro heq
  -- The dot before the axis would be a dot in `name`.
  apply dot_notMem_of_isPlainName h
  rw [heq]
  simp

/-- The text of a plain place tells the place. -/
theorem eq_of_render_eq {place place' : Place} (h : place.IsPlain) (h' : place'.IsPlain)
    (heq : place.render.toList = place'.render.toList) : place = place' := by
  cases place with
  | node => cases place' <;> simp [render] at heq ⊢
  | field name =>
    cases place' with
    | node => simp [render] at heq
    | field name' =>
      simp only [render, String.toList_append, List.append_cancel_left_eq] at heq
      rw [String.toList_inj.1 heq]
    | component name' axis =>
      simp only [render, String.toList_append, List.append_assoc] at heq
      exact absurd (List.append_cancel_left heq) (name_ne_component h)
  | component name axis =>
    cases place' with
    | node => simp [render] at heq
    | field name' =>
      simp only [render, String.toList_append, List.append_assoc] at heq
      exact absurd (List.append_cancel_left heq).symm (name_ne_component h')
    | component name' axis' =>
      simp only [render, String.toList_append, List.append_assoc] at heq
      -- Either name ends at the first dot.
      obtain ⟨hname, haxis⟩ := append_mark_inj (dot_notMem_of_isPlainName h)
        (dot_notMem_of_isPlainName h') (List.append_cancel_left heq)
      rw [String.toList_inj.1 hname, axis_eq_of_name_eq (String.toList_inj.1 haxis)]

end Place

/-! ## §5 Locations -/

namespace Location

theorem toList_render (base : String) (steps : List Nat) (place : Place) :
    (render ⟨⟨base, steps⟩, place⟩).toList =
      base.toList ++ (steps.flatMap fun i => (Address.renderStep i).toList) ++
        place.render.toList := by
  rw [render, String.toList_append, Address.toList_render]

/-- Behind one base the text tells the steps and the place. -/
theorem eq_of_render_eq {base : String} {steps steps' : List Nat} {place place' : Place}
    (h : place.IsPlain) (h' : place'.IsPlain)
    (heq : render ⟨⟨base, steps⟩, place⟩ = render ⟨⟨base, steps'⟩, place'⟩) :
    steps = steps' ∧ place = place' := by
  have hchars := congrArg String.toList heq
  simp only [toList_render, List.append_assoc, List.append_cancel_left_eq] at hchars
  clear heq
  induction steps generalizing steps' with
  | nil =>
    cases steps' with
    | nil => exact ⟨rfl, Place.eq_of_render_eq h h' (by simpa using hchars)⟩
    | cons j rest' =>
      -- A step has a bracket, and a place has none.
      refine absurd ?_ (Place.bracket_notMem_render h)
      rw [List.flatMap_nil, List.nil_append] at hchars
      rw [hchars]
      simp [Address.toList_renderStep]
  | cons i rest ih =>
    cases steps' with
    | nil =>
      refine absurd ?_ (Place.bracket_notMem_render h')
      rw [List.flatMap_nil, List.nil_append] at hchars
      rw [← hchars]
      simp [Address.toList_renderStep]
    | cons j rest' =>
      simp only [List.flatMap_cons, List.append_assoc] at hchars
      obtain ⟨hindex, hrest⟩ := Address.renderStep_append_inj hchars
      obtain ⟨hsteps, hplace⟩ := ih hrest
      exact ⟨by rw [hindex, hsteps], hplace⟩

/-- The text of a plain place, whatever stands before it, goes on from the text of an address just if
its steps go on from those of the address. -/
theorem render_isPrefix_iff {base : String} {steps steps' : List Nat} {place : Place}
    (h : place.IsPlain) :
    (Address.render ⟨base, steps⟩).toList <+: (render ⟨⟨base, steps'⟩, place⟩).toList ↔
      steps <+: steps' := by
  rw [Address.toList_render, toList_render, List.append_assoc, List.prefix_append_right_inj]
  constructor
  · rintro ⟨more, hmore⟩
    induction steps generalizing steps' with
    | nil => exact List.nil_prefix
    | cons i rest ih =>
      cases steps' with
      | nil =>
        -- A step has a bracket, and a place has none.
        refine absurd ?_ (Place.bracket_notMem_render h)
        rw [List.flatMap_nil, List.nil_append] at hmore
        rw [← hmore]
        simp [Address.toList_renderStep]
      | cons j rest' =>
        simp only [List.flatMap_cons, List.append_assoc] at hmore
        obtain ⟨hindex, hrest⟩ := Address.renderStep_append_inj hmore
        rw [hindex]
        exact (List.prefix_cons_inj j).2 (ih hrest)
  · rintro ⟨more, rfl⟩
    rw [List.flatMap_append, List.append_assoc]
    exact List.prefix_append ..

end Location

end PanelLayout
