import Mathlib.Data.List.Nodup
import PanelLayout.NamedList
import PanelLayout.Rules.NameTable

/-!
# Many names at once

An adjustment of the rules gives many names their values, one after the other, and a table that is
put on top of another does the same.

* `NamedList.setAll` gives each name of a list its value; `lookup_setAll` and `names_setAll` say
  what can be read afterwards and in which order.
* `NamedList.eq_of_lookup` and `NamedList.perm_of_lookup` compare lists of named values by what can
  be read: with one order of the names they are equal, and otherwise permutations.
* `NameTable.union` puts one table on top of another.
-/

namespace PanelLayout

/-! ## §1 Giving many names their values -/

namespace NamedList

variable {α : Type} {entries other given : List (String × α)}

/-- Gives the names of a list their values, one after the other. -/
def setAll (entries : List (String × α)) : List (String × α) → List (String × α)
  | [] => entries
  | (name, value) :: given => setAll (set name value entries) given

theorem lookup_eq_none_iff {name : String} : entries.lookup name = none ↔ name ∉ names entries := by
  rw [← Option.not_isSome_iff_eq_none, isSome_lookup_iff]

/-- What was given last is read at its name, and behind all that what was there before. -/
theorem lookup_setAll_reverse (name : String) :
    (setAll entries given).lookup name = (given.reverse.lookup name).or (entries.lookup name) := by
  induction given generalizing entries with
  | nil => rfl
  | cons head rest ih =>
    obtain ⟨first, value⟩ := head
    rw [setAll, ih, lookup_set, List.reverse_cons, List.lookup_append, Option.or_assoc,
      lookup_cons_ite]
    -- A later value of the name hides this one on either side.
    by_cases heq : name = first
    · rw [if_pos heq, if_pos heq, Option.some_or]
    · rw [if_neg heq, if_neg heq, List.lookup_nil, Option.none_or]

/-- What a list gives a name last is what stands there behind which the name does not come again. -/
theorem lookup_reverse_eq_some_iff {name : String} {value : α} :
    given.reverse.lookup name = some value ↔
      ∃ before after, given = before ++ (name, value) :: after ∧ name ∉ names after := by
  have hother : ∀ after : List (String × α),
      (∀ entry ∈ after.reverse, (name != entry.1) = true) ↔ name ∉ names after := by
    intro after
    simp only [List.mem_reverse, bne_iff_ne, names, List.mem_map, not_exists, not_and]
    exact ⟨fun h entry hentry heq => h entry hentry heq.symm,
      fun h entry hentry heq => h entry hentry heq.symm⟩
  rw [List.lookup_eq_some_iff]
  -- What stands behind the entry comes before it when the list is read from its end.
  constructor
  · rintro ⟨after, before, hsplit, hafter⟩
    refine ⟨before.reverse, after.reverse, ?_, (hother _).1 (by rwa [List.reverse_reverse])⟩
    rw [List.reverse_eq_iff.1 hsplit, List.reverse_append, List.reverse_cons, List.append_assoc,
      List.singleton_append]
  · rintro ⟨before, after, rfl, hafter⟩
    refine ⟨after.reverse, before.reverse, ?_, (hother after).2 hafter⟩
    rw [List.reverse_append, List.reverse_cons, List.append_assoc, List.singleton_append]

/-- Where no name is given twice, the order in which they are given does not matter. -/
theorem lookup_setAll (hgiven : (names given).Nodup) (name : String) :
    (setAll entries given).lookup name = (given.lookup name).or (entries.lookup name) := by
  rw [lookup_setAll_reverse, lookup_eq_of_perm hgiven (List.reverse_perm given).symm]

/-- The names that are there keep their places, and each new one follows when it is first given. -/
theorem names_setAll_eraseDups :
    names (setAll entries given) =
      names entries ++ ((names given).removeAll (names entries)).eraseDups := by
  induction given generalizing entries with
  | nil => exact (List.append_nil _).symm
  | cons head rest ih =>
    obtain ⟨name, value⟩ := head
    have hcons : names ((name, value) :: rest) = name :: names rest := rfl
    rw [setAll, ih, names_set, hcons, List.cons_removeAll]
    by_cases hmem : name ∈ names entries
    · simp [hmem]
    · -- Later on the name is as well known as those that were there.
      have hlater : (names rest).removeAll (names entries ++ [name]) =
          ((names rest).removeAll (names entries)).filter (fun later => !later == name) := by
        rw [List.removeAll, List.removeAll, List.filter_filter]
        exact List.filter_congr fun later _ => by simp [Bool.and_comm, beq_eq_decide]
      rw [if_neg hmem, hlater]
      simp [hmem, List.eraseDups_cons]

/-- Where nothing stands twice, nothing is erased. -/
theorem eraseDups_of_nodup {list : List String} (h : list.Nodup) : list.eraseDups = list := by
  induction list with
  | nil => rfl
  | cons name rest ih =>
    obtain ⟨hname, hrest⟩ := List.nodup_cons.1 h
    have hkept : (rest.filter fun later => !later == name) = rest :=
      List.filter_eq_self.2 fun later hlater => by simp [ne_of_mem_of_not_mem hlater hname]
    rw [List.eraseDups_cons, hkept, ih hrest]

/-- The names that are there keep their places, and the new ones follow in the order in which they
are given. -/
theorem names_setAll (hgiven : (names given).Nodup) :
    names (setAll entries given) =
      names entries ++ (names given).filter (· ∉ names entries) := by
  have hnew : (names given).removeAll (names entries) =
      (names given).filter (· ∉ names entries) :=
    List.filter_congr fun name _ => by simp
  rw [names_setAll_eraseDups, hnew, eraseDups_of_nodup (hgiven.filter _)]

theorem names_setAll_of_known (hgiven : (names given).Nodup)
    (hknown : ∀ entry ∈ given, entry.1 ∈ names entries) :
    names (setAll entries given) = names entries := by
  have hnone : (names given).filter (· ∉ names entries) = [] := by
    refine List.filter_eq_nil_iff.2 fun name hname => ?_
    obtain ⟨entry, hentry, rfl⟩ := List.mem_map.1 hname
    simpa using hknown entry hentry
  rw [names_setAll hgiven, hnone, List.append_nil]

theorem nodup_names_setAll (h : (names entries).Nodup) :
    (names (setAll entries given)).Nodup := by
  induction given generalizing entries with
  | nil => exact h
  | cons head rest ih => exact ih (nodup_names_set head.1 head.2 h)

/-! ## §2 Lists that read the same -/

theorem mem_iff_lookup (h : (names entries).Nodup) {entry : String × α} :
    entry ∈ entries ↔ entries.lookup entry.1 = some entry.2 :=
  ⟨fun hmem => lookup_of_mem h hmem, fun hlookup => mem_of_lookup hlookup⟩

/-- Every entry was given or was there before. -/
theorem mem_of_mem_setAll (h : (names entries).Nodup) (hgiven : (names given).Nodup)
    {entry : String × α} (hmem : entry ∈ setAll entries given) :
    entry ∈ given ∨ entry ∈ entries := by
  rw [mem_iff_lookup (nodup_names_setAll h), lookup_setAll hgiven, Option.or_eq_some_iff] at hmem
  rcases hmem with hmem | ⟨-, hmem⟩
  · exact .inl (mem_of_lookup hmem)
  · exact .inr (mem_of_lookup hmem)

/-- Two lists that have the same names in the same order and read the same are equal. -/
theorem eq_of_lookup (hnodup : (names entries).Nodup) (hnames : names entries = names other)
    (hlookup : ∀ name, entries.lookup name = other.lookup name) : entries = other := by
  induction entries generalizing other with
  | nil =>
    cases other with
    | nil => rfl
    | cons head rest => simp [names] at hnames
  | cons head rest ih =>
    cases other with
    | nil => simp [names] at hnames
    | cons head' rest' =>
      obtain ⟨name, value⟩ := head
      obtain ⟨name', value'⟩ := head'
      obtain ⟨rfl, hrest⟩ := List.cons.inj hnames
      obtain ⟨hname, hnodup⟩ := List.nodup_cons.1 hnodup
      have hvalue : value = value' := by simpa using hlookup name
      -- Behind the first entry its name is not read any more.
      have htail : ∀ later, rest.lookup later = rest'.lookup later := by
        intro later
        by_cases heq : later = name
        · subst heq
          have hname' : later ∉ names rest' := by
            rw [names, ← hrest]
            exact hname
          rw [lookup_eq_none_iff.2 hname, lookup_eq_none_iff.2 hname']
        · have hlater := hlookup later
          rwa [lookup_cons_ite, lookup_cons_ite, if_neg heq, if_neg heq] at hlater
      rw [hvalue, ih hnodup hrest htail]

/-- Two lists that read the same have the same entries. -/
theorem perm_of_lookup (h : (names entries).Nodup) (h' : (names other).Nodup)
    (hlookup : ∀ name, entries.lookup name = other.lookup name) : entries.Perm other := by
  refine (List.perm_ext_iff_of_nodup h.of_map h'.of_map).2 fun entry => ?_
  rw [mem_iff_lookup h, mem_iff_lookup h', hlookup]

/-- The first entries read as the whole list does, at their own names. -/
theorem lookup_take {n : Nat} {name : String} (h : name ∈ names (entries.take n)) :
    (entries.take n).lookup name = entries.lookup name := by
  obtain ⟨value, hvalue⟩ := Option.isSome_iff_exists.1 (isSome_lookup_iff.2 h)
  have hsplit : (entries.take n ++ entries.drop n).lookup name = some value := by
    rw [List.lookup_append, hvalue]
    rfl
  rw [List.take_append_drop] at hsplit
  rw [hvalue, hsplit]

end NamedList

/-! ## §3 Tables on top of each other -/

namespace NameTable

variable {α : Type}

/-- A sorted table names each of its names once. -/
theorem nodup_names (table : NameTable α) : (NamedList.names table.entries).Nodup := by
  refine List.pairwise_map.2 (table.sorted.imp fun hlt heq => ?_)
  rw [heq] at hlt
  exact String.lt_irrefl _ hlt

theorem lookup_put (name other : String) (value : α) (entries : List (String × α)) :
    (put name value entries).lookup other =
      if other = name then some value else entries.lookup other := by
  induction entries with
  | nil => rw [put, NamedList.lookup_cons_ite]
  | cons head rest ih =>
    obtain ⟨k, v⟩ := head
    simp only [put]
    split
    · rw [NamedList.lookup_cons_ite]
    · split
      · rename_i hlt
        rw [NamedList.lookup_cons_ite, NamedList.lookup_cons_ite, ih]
        -- The two names differ, since one stands before the other.
        by_cases hk : other = k
        · have hne : other ≠ name := by
            rintro rfl
            exact String.lt_irrefl _ (hk ▸ hlt)
          rw [if_pos hk, if_neg hne, if_pos hk]
        · rw [if_neg hk, if_neg hk]
      · rename_i hnlt hngt
        have hk : k = name := eq_of_not_lt hngt hnlt
        subst hk
        rw [NamedList.lookup_cons_ite, NamedList.lookup_cons_ite]
        split <;> rfl

/-- One table on top of another: where both give a name a value, that of `top` counts. -/
def union (bottom top : NameTable α) : NameTable α :=
  top.entries.foldl (fun table (name, value) => table.insert name value) bottom

theorem lookup_foldl_insert {given : List (String × α)} (hgiven : (NamedList.names given).Nodup)
    (table : NameTable α) (name : String) :
    (given.foldl (fun table (name, value) => table.insert name value) table).entries.lookup name =
      (given.lookup name).or (table.entries.lookup name) := by
  induction given generalizing table with
  | nil => rfl
  | cons head rest ih =>
    obtain ⟨first, value⟩ := head
    obtain ⟨hfirst, hrest⟩ := List.nodup_cons.1 hgiven
    have hput : (table.insert first value).entries = put first value table.entries := rfl
    rw [List.foldl_cons, ih hrest, hput, lookup_put, NamedList.lookup_cons_ite]
    by_cases heq : name = first
    · have hnone : rest.lookup name = none := NamedList.lookup_eq_none_iff.2 (heq ▸ hfirst)
      rw [hnone, if_pos heq, if_pos heq]
      rfl
    · rw [if_neg heq, if_neg heq]

theorem lookup_union (bottom top : NameTable α) (name : String) :
    (bottom.union top).entries.lookup name =
      (top.entries.lookup name).or (bottom.entries.lookup name) :=
  lookup_foldl_insert top.nodup_names bottom name

end NameTable

end PanelLayout
