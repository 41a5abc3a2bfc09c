/-!
# Tables sorted by name

A `NameTable` gives each of some names a value and keeps the names in ascending order of their
code points.  A name that is put in again takes the new value.  Since the order is part of the
type, two tables that give the same names the same values are equal, however they were filled.
-/

namespace PanelLayout

/-- Names with their values, in ascending order of the names. -/
structure NameTable (α : Type) where
  entries : List (String × α)
  sorted : entries.Pairwise (fun a b => a.1 < b.1)

namespace NameTable

variable {α : Type}

def empty : NameTable α := ⟨[], .nil⟩

/-- Puts a value at a name in a sorted list. -/
def put (name : String) (value : α) : List (String × α) → List (String × α)
  | [] => [(name, value)]
  | (k, v) :: rest =>
    if name < k then (name, value) :: (k, v) :: rest
    else if k < name then (k, v) :: put name value rest
    else (name, value) :: rest

theorem fst_mem_put {name : String} {value : α} {entries : List (String × α)}
    {entry : String × α} (h : entry ∈ put name value entries) :
    entry.1 = name ∨ ∃ old ∈ entries, old.1 = entry.1 := by
  induction entries with
  | nil => simp [put] at h; simp [h]
  | cons head rest ih =>
    obtain ⟨k, v⟩ := head
    simp only [put] at h
    split at h
    · rcases List.mem_cons.1 h with rfl | h
      · exact .inl rfl
      · exact .inr ⟨entry, h, rfl⟩
    · split at h
      · rcases List.mem_cons.1 h with rfl | h
        · exact .inr ⟨(k, v), by simp, rfl⟩
        · rcases ih h with h | ⟨old, hold, heq⟩
          · exact .inl h
          · exact .inr ⟨old, List.mem_cons_of_mem _ hold, heq⟩
      · rcases List.mem_cons.1 h with rfl | h
        · exact .inl rfl
        · exact .inr ⟨entry, List.mem_cons_of_mem _ h, rfl⟩

theorem eq_of_not_lt {a b : String} (hab : ¬ a < b) (hba : ¬ b < a) : a = b :=
  String.le_antisymm (String.not_lt.1 hba) (String.not_lt.1 hab)

/-- Filling keeps a list sorted. -/
theorem sorted_put (name : String) (value : α) {entries : List (String × α)}
    (h : entries.Pairwise (fun a b => a.1 < b.1)) :
    (put name value entries).Pairwise (fun a b => a.1 < b.1) := by
  induction entries with
  | nil => simp [put]
  | cons head rest ih =>
    obtain ⟨k, v⟩ := head
    obtain ⟨hk, hrest⟩ := List.pairwise_cons.1 h
    simp only [put]
    split
    · rename_i hlt
      refine List.pairwise_cons.2 ⟨fun entry he => ?_, h⟩
      rcases List.mem_cons.1 he with rfl | he
      · exact hlt
      · exact String.lt_trans hlt (hk entry he)
    · rename_i hnlt
      split
      · rename_i hlt
        refine List.pairwise_cons.2 ⟨fun entry he => ?_, ih hrest⟩
        rcases fst_mem_put he with heq | ⟨old, hold, heq⟩
        · rw [heq]; exact hlt
        · rw [← heq]; exact hk old hold
      · rename_i hngt
        have hname : k = name := eq_of_not_lt hngt hnlt
        subst hname
        exact List.pairwise_cons.2 ⟨hk, hrest⟩

/-- The table with a value at a name. -/
def insert (table : NameTable α) (name : String) (value : α) : NameTable α :=
  ⟨put name value table.entries, sorted_put name value table.sorted⟩

/-- The table filled with entries one after the other. -/
def ofList (entries : List (String × α)) : NameTable α :=
  entries.foldl (fun table (name, value) => table.insert name value) empty

end NameTable

end PanelLayout
