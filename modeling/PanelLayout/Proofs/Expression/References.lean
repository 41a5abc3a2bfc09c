import PanelLayout.Proofs.Expression.Problems
import PanelLayout.Proofs.Expression.Segments
import PanelLayout.Proofs.Rules.Reachable

/-!
# References to icon modules

The references of a text are searched from left to right.  What belongs to a reference is skipped,
and those behind a backslash are left out in the end.  Nothing is lost in this way, since a
reference contains no opening brace but its first character.

* `RefersAt` says without a search where a text refers to which module.
* `placesFrom` looks at every place of a text, and `mem_placesFrom_iff` says that it finds these.
* `search_eq_placesFrom` says that the search finds the same, so that `mem_references_iff` says of the
  modules found what they are.

`references_at_places` puts them together, and says which references are reported.
-/

namespace PanelLayout.IconModule

open Expression (lastOf lastOf_cons)

/-! ## §1 Where a text refers to a module -/

/-- The text behind `before` refers to the module at this place: there stands an opening brace that
is not behind a backslash, then the name, then a colon. -/
def RefersAt (before : Option Char) (cs : List Char) (place : Nat) (name : String) : Prop :=
  ∃ front back, cs = front ++ '\x7b' :: (name.toList ++ ':' :: back) ∧ front.length = place ∧
    lastOf before front ≠ some '\\' ∧ name ≠ "" ∧ ∀ c ∈ name.toList, RuleSet.IsModuleChar c

theorem isName_iff {name : String} :
    isName name.toList = true ↔ name ≠ "" ∧ ∀ c ∈ name.toList, RuleSet.IsModuleChar c :=
  RuleSet.isModuleName_iff

theorem isNameChar_of_isName {name : List Char} (h : isName name = true) :
    ∀ c ∈ name, isNameChar c = true := by
  simp only [isName, Bool.and_eq_true, List.all_eq_true] at h
  exact h.2

theorem takeWhile_name {name : List Char} (h : ∀ c ∈ name, isNameChar c = true)
    (back : List Char) : (name ++ ':' :: back).takeWhile isNameChar = name := by
  have hcolon : isNameChar ':' = false := by decide
  rw [List.takeWhile_append_of_pos h, List.takeWhile_cons, hcolon]
  simp

theorem dropWhile_name {name : List Char} (h : ∀ c ∈ name, isNameChar c = true)
    (back : List Char) : (name ++ ':' :: back).dropWhile isNameChar = ':' :: back := by
  have hcolon : isNameChar ':' = false := by decide
  rw [List.dropWhile_append_of_pos h, List.dropWhile_cons, hcolon]
  simp

/-- A reference at the beginning is a brace, a name and a colon. -/
theorem referenceAt?_eq_some_iff {cs name : List Char} :
    referenceAt? cs = some name ↔
      isName name = true ∧ ∃ back, cs = '\x7b' :: (name ++ ':' :: back) := by
  constructor
  · intro h
    unfold referenceAt? at h
    split at h
    · rename_i rest
      rw [Option.ite_none_right_eq_some, Bool.and_eq_true, decide_eq_true_eq] at h
      obtain ⟨⟨hne, hcolon⟩, hname⟩ := h
      obtain ⟨back, hback⟩ := List.head?_eq_some_iff.1 hcolon
      cases hname
      refine ⟨?_, back, ?_⟩
      · simp only [isName, hne, Bool.true_and]
        exact List.all_takeWhile
      · rw [← hback, List.takeWhile_append_dropWhile]
    · cases h
  · intro h
    obtain ⟨hname, back, rfl⟩ := h
    have hchars := isNameChar_of_isName hname
    have hne : name.isEmpty = false := by
      simp only [isName, Bool.and_eq_true, Bool.not_eq_true'] at hname
      exact hname.1
    simp [referenceAt?, takeWhile_name hchars, dropWhile_name hchars, hne]

/-- A text refers to a module at its beginning, or further behind. -/
theorem refersAt_cons_iff {before : Option Char} {c : Char} {rest : List Char} {place : Nat}
    {name : String} :
    RefersAt before (c :: rest) place name ↔
      (place = 0 ∧ before ≠ some '\\' ∧ referenceAt? (c :: rest) = some name.toList) ∨
      ∃ further, place = further + 1 ∧ RefersAt (some c) rest further name := by
  rw [referenceAt?_eq_some_iff, isName_iff]
  constructor
  · intro h
    obtain ⟨front, back, htext, rfl, hlast, hname⟩ := h
    cases front with
    | nil => exact .inl ⟨rfl, hlast, hname, back, htext⟩
    | cons d front =>
      obtain ⟨rfl, hrest⟩ := List.cons.inj htext
      rw [lastOf_cons] at hlast
      exact .inr ⟨front.length, rfl, front, back, hrest, rfl, hlast, hname⟩
  · intro h
    rcases h with ⟨rfl, hbefore, hname, back, htext⟩ | ⟨further, rfl, hfurther⟩
    · exact ⟨[], back, htext, rfl, hbefore, hname⟩
    · obtain ⟨front, back, rfl, rfl, hlast, hname⟩ := hfurther
      refine ⟨c :: front, back, rfl, rfl, ?_, hname⟩
      rwa [lastOf_cons]

/-! ## §2 Every place is looked at -/

/-- The modules that a text behind `before` refers to, each with its place.  The text begins at the
given place. -/
def placesFrom (before : Option Char) (place : Nat) : List Char → List (Nat × String)
  | [] => []
  | c :: rest =>
    let further := placesFrom (some c) (place + 1) rest
    match referenceAt? (c :: rest) with
    | some name => if before = some '\\' then further else (place, String.ofList name) :: further
    | none => further

theorem mem_placesFrom_cons {before : Option Char} {start place : Nat} {c : Char}
    {rest : List Char} {name : String} :
    (place, name) ∈ placesFrom before start (c :: rest) ↔
      (place = start ∧ before ≠ some '\\' ∧ referenceAt? (c :: rest) = some name.toList) ∨
      (place, name) ∈ placesFrom (some c) (start + 1) rest := by
  rw [placesFrom]
  cases hreference : referenceAt? (c :: rest) with
  | none => simp
  | some found =>
    by_cases hbefore : before = some '\\'
    · simp [hbefore]
    · have hname : name = String.ofList found ↔ found = name.toList := by
        constructor
        · rintro rfl
          exact String.toList_ofList.symm
        · rintro rfl
          exact String.ofList_toList.symm
      simp [hbefore, hname]

/-- Every place at which the text refers to a module is found, and no other. -/
theorem mem_placesFrom_iff {before : Option Char} {start place : Nat} {cs : List Char}
    {name : String} :
    (place, name) ∈ placesFrom before start cs ↔
      ∃ offset, place = start + offset ∧ RefersAt before cs offset name := by
  induction cs generalizing before start with
  | nil => simp [placesFrom, RefersAt]
  | cons c rest ih =>
    rw [mem_placesFrom_cons, ih]
    constructor
    · intro h
      rcases h with ⟨rfl, hhere⟩ | ⟨offset, rfl, hfurther⟩
      · exact ⟨0, rfl, refersAt_cons_iff.2 (.inl ⟨rfl, hhere⟩)⟩
      · exact ⟨offset + 1, by omega, refersAt_cons_iff.2 (.inr ⟨offset, rfl, hfurther⟩)⟩
    · intro h
      obtain ⟨offset, rfl, hoffset⟩ := h
      rcases refersAt_cons_iff.1 hoffset with ⟨rfl, hhere⟩ | ⟨further, rfl, hfurther⟩
      · exact .inl ⟨rfl, hhere⟩
      · exact .inr ⟨further, by omega, hfurther⟩

/-- The places are found from left to right. -/
theorem pairwise_placesFrom (before : Option Char) (start : Nat) (cs : List Char) :
    (placesFrom before start cs).Pairwise (·.1 < ·.1) := by
  induction cs generalizing before start with
  | nil => exact List.Pairwise.nil
  | cons c rest ih =>
    rw [placesFrom]
    split
    · rename_i name hreference
      split
      · exact ih ..
      · apply List.Pairwise.cons _ (ih ..)
        intro found hfound
        obtain ⟨offset, hplace, -⟩ := mem_placesFrom_iff.1 hfound
        show start < found.1
        omega
    · exact ih ..

/-! ## §3 The search loses nothing -/

/-- What belongs to a reference contains no opening brace but its first character. -/
theorem brace_notMem_take {c : Char} {rest name : List Char}
    (h : referenceAt? (c :: rest) = some name) : '\x7b' ∉ rest.take (name.length + 1) := by
  obtain ⟨hname, back, htext⟩ := referenceAt?_eq_some_iff.1 h
  obtain ⟨-, rfl⟩ := List.cons.inj htext
  have htake : (name ++ ':' :: back).take (name.length + 1) = name ++ [':'] := by
    rw [List.take_length_add_append]
    rfl
  have hbrace : isNameChar '\x7b' = false := by decide
  intro hmem
  rw [htake, List.mem_append, List.mem_singleton] at hmem
  rcases hmem with hmem | hcolon
  · rw [isNameChar_of_isName hname _ hmem] at hbrace
    cases hbrace
  · exact absurd hcolon (by decide)

theorem referenceAt?_eq_none {c : Char} (h : c ≠ '\x7b') (rest : List Char) :
    referenceAt? (c :: rest) = none := by
  rw [referenceAt?]
  rintro _ ⟨⟩
  exact h rfl

/-- The search finds what looking at every place finds, if it only skips what contains no opening
brace. -/
theorem search_eq_placesFrom {before : Option Char} {covered : Nat} {cs : List Char}
    (h : '\x7b' ∉ cs.take covered) (start : Nat) :
    ((search before covered cs).filter (!·.escaped)).map (fun found => String.ofList found.name) =
      (placesFrom before start cs).map Prod.snd := by
  induction cs generalizing before covered start with
  | nil => rfl
  | cons c rest ih =>
    rw [placesFrom]
    cases covered with
    | succ n =>
      -- Nothing is lost, since no reference begins here.
      rw [List.take_succ_cons, List.mem_cons, not_or] at h
      rw [search, referenceAt?_eq_none (Ne.symm h.1)]
      exact ih h.2 (start + 1)
    | zero =>
      rw [search]
      cases hreference : referenceAt? (c :: rest) with
      | none => exact ih (by simp) (start + 1)
      | some name =>
        have hrest := @ih (some c) (name.length + 1) (brace_notMem_take hreference) (start + 1)
        by_cases hbefore : before = some '\\'
        · simpa [hbefore] using hrest
        · simpa [hbefore] using hrest

/-- The modules found are those to which the text refers at some place. -/
theorem mem_references_iff {s name : String} :
    name ∈ references s ↔ ∃ place, RefersAt none s.toList place name := by
  have hplaces : references s = (placesFrom none 0 s.toList).map Prod.snd :=
    search_eq_placesFrom (by simp) 0
  rw [hplaces, List.mem_map]
  apply Iff.intro
  · intro h
    obtain ⟨⟨place, _⟩, hmem, rfl⟩ := h
    obtain ⟨offset, -, hoffset⟩ := mem_placesFrom_iff.1 hmem
    exact ⟨offset, hoffset⟩
  · intro h
    obtain ⟨place, hplace⟩ := h
    exact ⟨(place, name), mem_placesFrom_iff.2 ⟨place, by simp, hplace⟩, rfl⟩

example : references "\\\x7ba:\x7bb:\x7b:\x7bc_d:" = ["b", "c_d"] := by decide

theorem references_eq_nil_of_noOpening {s : String} (h : Expression.NoOpening none s.toList) :
    references s = [] := by
  apply List.eq_nil_iff_forall_not_mem.2
  intro name hname
  -- The brace of a reference would open something.
  obtain ⟨_, front, back, htext, -, hlast, -⟩ := mem_references_iff.1 hname
  exact hlast (h front _ htext)

/-! ## §4 The references of a text -/

/-- The references of a text are the modules that it refers to, from left to right, place by place.
Those in the name of an icon whose module is not known are reported, and none in other
attributes. -/
theorem references_at_places :
    (∀ s : String, ∃ places : List (Nat × String), places.Pairwise (·.1 < ·.1) ∧
      (∀ place name, (place, name) ∈ places ↔ RefersAt none s.toList place name) ∧
      references s = places.map Prod.snd) ∧
    ∀ (rules : RuleSet) (field : String) (value : AttrValue),
      (Findings.ofExpression rules field value).filter (·.code = "UnknownIconModule") =
        if field = "icon_id" then
          ((references value.render).filter (· ∉ rules.iconModules)).map
            (.unknownIconModule · (", ".intercalate rules.iconModules))
        else [] := by
  refine ⟨?_, ?_⟩
  · intro s
    refine ⟨placesFrom none 0 s.toList, pairwise_placesFrom none 0 s.toList, ?_, ?_⟩
    · intro place name
      simp [mem_placesFrom_iff]
    · exact search_eq_placesFrom (by simp) 0
  · intro rules field value
    have hunknown : (references value.render).filter (!rules.isIconModule ·) =
        (references value.render).filter (· ∉ rules.iconModules) := by
      simp [RuleSet.isIconModule]
    rw [Findings.filter_modules, Findings.ofModules, hunknown]
    rfl

end PanelLayout.IconModule
