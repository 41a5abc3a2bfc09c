import Mathlib.Data.List.Forall2

/-!
# Steps that may fail

What a sequence of steps comes to, each of which gives a result or an error: one after another, and
one for each item of a list.
-/

namespace PanelLayout

section Steps

variable {α β ε : Type}

theorem bind_eq_ok_iff {first : Except ε α} {second : α → Except ε β} {result : β} :
    first >>= second = .ok result ↔ ∃ value, first = .ok value ∧ second value = .ok result := by
  cases first <;> simp [bind, Except.bind]

theorem map_eq_ok_iff {step : Except ε α} {f : α → β} {result : β} :
    step.map f = .ok result ↔ ∃ value, step = .ok value ∧ f value = result := by
  cases step <;> simp [Except.map]

/-- What two lists have in common place by place, a member of one has with one of the other. -/
theorem exists_mem_of_forall₂ {related : α → β → Prop} {items : List α} {results : List β}
    (h : List.Forall₂ related items results) {item : α} (hmem : item ∈ items) :
    ∃ result ∈ results, related item result := by
  induction h with
  | nil => simp at hmem
  | @cons first result _ _ hfirst _ ih =>
    rcases List.mem_cons.1 hmem with rfl | hrest
    · exact ⟨result, List.mem_cons_self .., hfirst⟩
    · obtain ⟨later, hlater, hrelated⟩ := ih hrest
      exact ⟨later, List.mem_cons_of_mem _ hlater, hrelated⟩

end Steps

section mapM

variable {α β ε : Type} {f : α → Except ε β} {items : List α}

/-- All steps succeed if each of them does, and the results come in the order of the steps. -/
theorem mapM_eq_ok_iff {results : List β} :
    items.mapM f = .ok results ↔
      List.Forall₂ (fun item result => f item = .ok result) items results := by
  -- The results are generalised, since those of the rest are fewer.
  induction items generalizing results with
  | nil =>
    rw [List.mapM_nil, List.forall₂_nil_left_iff]
    exact ⟨fun h => (Except.ok.inj h).symm, fun h => congrArg Except.ok h.symm⟩
  | cons item rest ih =>
    rw [List.mapM_cons, List.forall₂_cons_left_iff]
    cases hitem : f item with
    | error e => simp [bind, Except.bind]
    | ok result =>
      cases hrest : rest.mapM f with
      | error e => simp [bind, Except.bind, ← ih, hrest]
      | ok found => simp [bind, Except.bind, pure, Except.pure, ← ih, hrest, eq_comm]

/-- The first step that fails decides, after steps that have all succeeded. -/
theorem mapM_eq_error_iff {e : ε} :
    items.mapM f = .error e ↔
      ∃ before item after, items = before ++ item :: after ∧
        (∀ earlier ∈ before, ∃ result, f earlier = .ok result) ∧ f item = .error e := by
  induction items with
  | nil => simp [pure, Except.pure]
  | cons item rest ih =>
    rw [List.mapM_cons]
    constructor
    · intro h
      -- Either the first step fails, with none before it, or it stands before the one that does.
      cases hitem : f item with
      | error e' =>
        rw [hitem] at h
        cases h
        exact ⟨[], item, rest, rfl, by simp, hitem⟩
      | ok result =>
        have hrest : rest.mapM f = .error e := by
          rw [hitem] at h
          cases hrest : rest.mapM f with
          | error e' =>
            rw [hrest] at h
            cases h
            rfl
          | ok found =>
            rw [hrest] at h
            cases h
        obtain ⟨before, failing, after, rfl, hbefore, hfailing⟩ := ih.1 hrest
        refine ⟨item :: before, failing, after, rfl, ?_, hfailing⟩
        exact List.forall_mem_cons.2 ⟨⟨result, hitem⟩, hbefore⟩
    · rintro ⟨before, failing, after, hitems, hbefore, hfailing⟩
      cases before with
      | nil =>
        cases hitems
        rw [hfailing]
        rfl
      | cons first before =>
        cases hitems
        obtain ⟨⟨result, hfirst⟩, hbefore⟩ := List.forall_mem_cons.1 hbefore
        rw [hfirst, ih.2 ⟨before, failing, after, rfl, hbefore, hfailing⟩]
        rfl

end mapM

end PanelLayout
