/-!
# Lists of named values

A list of named values in which each name stands once keeps the order in which its names came.
`NamedList.set` gives a name a value: a name that is there keeps its place, a new one goes to the
end.  `List.lookup` reads such a list.

* `lookup_set` says what can be read afterwards: the new value at its name, and all else as it was.
* `names_set` says which names there are, and in which order.
* `getElem?_set_iff` says that all entries of other names stay where they are.
-/

namespace PanelLayout.NamedList

variable {α : Type}

/-! ## §1 Operations -/

/-- Gives a name a value. -/
def set (name : String) (value : α) : List (String × α) → List (String × α)
  | [] => [(name, value)]
  | (k, v) :: rest => if k = name then (k, value) :: rest else (k, v) :: set name value rest

def names (entries : List (String × α)) : List String := entries.map (·.1)

/-! ## §2 What can be read -/

/-- Reading begins with the first entry and goes on only past another name. -/
theorem lookup_cons_ite (other k : String) (v : α) (rest : List (String × α)) :
    List.lookup other ((k, v) :: rest) = if other = k then some v else rest.lookup other := by
  by_cases h : other = k
  · subst h; simp
  · have hne : (other == k) = false := beq_false_of_ne h
    simp [List.lookup_cons, hne, h]

/-- The value that is read at a name is the one it was given last; no other name is touched. -/
theorem lookup_set (name other : String) (value : α) (entries : List (String × α)) :
    (set name value entries).lookup other =
      if other = name then some value else entries.lookup other := by
  induction entries with
  | nil => simp [set, lookup_cons_ite]
  | cons head rest ih =>
    obtain ⟨k, v⟩ := head
    by_cases hk : k = name
    · subst hk
      by_cases ho : other = k <;> simp [set, lookup_cons_ite, ho]
    · by_cases ho : other = k
      · subst ho; simp [set, hk]
      · simp [set, lookup_cons_ite, hk, ho, ih]

/-- Where each name stands once, every entry is read at its name. -/
theorem lookup_of_mem {name : String} {value : α} {entries : List (String × α)}
    (h : (names entries).Nodup) (hmem : (name, value) ∈ entries) :
    entries.lookup name = some value := by
  induction entries with
  | nil => simp at hmem
  | cons head rest ih =>
    obtain ⟨k, v⟩ := head
    obtain ⟨hk, hrest⟩ := List.nodup_cons.1 h
    rcases List.mem_cons.1 hmem with heq | hmem
    · cases heq
      simp
    · -- The first entry has another name.
      have hne : name ≠ k := fun heq => hk (heq ▸ List.mem_map.2 ⟨_, hmem, rfl⟩)
      rw [lookup_cons_ite, if_neg hne, ih hrest hmem]

/-- What is read at a name is an entry. -/
theorem mem_of_lookup {name : String} {value : α} {entries : List (String × α)}
    (h : entries.lookup name = some value) : (name, value) ∈ entries := by
  obtain ⟨before, after, heq, -⟩ := List.lookup_eq_some_iff.1 h
  rw [heq]
  exact List.mem_append_right _ (List.mem_cons_self ..)

/-- Where each name stands once, the order of the entries cannot be read. -/
theorem lookup_eq_of_perm {entries entries' : List (String × α)} (h : (names entries).Nodup)
    (hperm : entries.Perm entries') (name : String) :
    entries.lookup name = entries'.lookup name := by
  have hnames : (names entries).Perm (names entries') := hperm.map _
  have h' : (names entries').Nodup := hnames.nodup_iff.1 h
  refine Option.ext fun value => ⟨fun hvalue => ?_, fun hvalue => ?_⟩
  · exact lookup_of_mem h' (hperm.mem_iff.1 (mem_of_lookup hvalue))
  · exact lookup_of_mem h (hperm.mem_iff.2 (mem_of_lookup hvalue))

/-! ## §3 Names -/

/-- A value is read at exactly the names that are there. -/
theorem isSome_lookup_iff {name : String} {entries : List (String × α)} :
    (entries.lookup name).isSome ↔ name ∈ names entries := by
  simp only [names, List.lookup_isSome_iff, beq_iff_eq, List.mem_map]
  exact ⟨fun ⟨entry, hmem, heq⟩ => ⟨entry, hmem, heq.symm⟩,
    fun ⟨entry, hmem, heq⟩ => ⟨entry, hmem, heq.symm⟩⟩

/-- A new name goes to the end, and an old one keeps its place. -/
theorem names_set (name : String) (value : α) (entries : List (String × α)) :
    names (set name value entries) =
      if name ∈ names entries then names entries else names entries ++ [name] := by
  induction entries with
  | nil => simp [set, names]
  | cons head rest ih =>
    obtain ⟨k, v⟩ := head
    by_cases hk : k = name
    · subst hk; simp [set, names]
    · have hne : name ≠ k := fun h => hk h.symm
      have hnew : names (set name value ((k, v) :: rest)) = k :: names (set name value rest) := by
        simp [set, hk, names]
      have hold : names ((k, v) :: rest) = k :: names rest := rfl
      have hmem : name ∈ k :: names rest ↔ name ∈ names rest := by simp [hne]
      rw [hnew, hold, ih]
      simp only [hmem]
      split <;> simp

/-- Names that each stand once still do after one was given a value. -/
theorem nodup_names_set (name : String) (value : α) {entries : List (String × α)}
    (h : (names entries).Nodup) : (names (set name value entries)).Nodup := by
  rw [names_set]
  split
  · exact h
  · rename_i hmem
    refine List.nodup_append.2 ⟨h, by simp, fun a ha b hb => ?_⟩
    rw [List.mem_singleton.1 hb]
    exact fun heq => hmem (heq ▸ ha)

/-! ## §4 Places -/

/-- An entry of another name stands where it stood, and none is added. -/
theorem getElem?_set_iff {name other : String} (hne : other ≠ name) (value content : α)
    (entries : List (String × α)) (i : Nat) :
    (set name value entries)[i]? = some (other, content) ↔
      entries[i]? = some (other, content) := by
  induction entries generalizing i with
  | nil =>
    -- The only entry is the new one.
    cases i <;> simp [set, hne.symm]
  | cons head rest ih =>
    obtain ⟨k, v⟩ := head
    by_cases hk : k = name
    · subst hk
      cases i <;> simp [set, hne.symm]
    · cases i with
      | zero => simp [set, hk]
      | succ i => simpa [set, hk] using ih i

end PanelLayout.NamedList
