import Mathlib.Data.List.Perm.Basic
import PanelLayout.Overrides.OfTree
import PanelLayout.Proofs.Rules.Adjustment
import PanelLayout.Proofs.Rules.Tables
import PanelLayout.Proofs.Steps

/-!
# The order of keys in an override document

An override document is read entry by entry, but nothing is kept of the order: a field must not
stand twice, tables are sorted by name, and each setting has a place of its own.  How the single
values are read plays no part, so that all of it is said for arbitrary decoders.

* `Yaml.Tree.Permuted` is one mapping in two orders, and `Overrides.Rearranged` an override
  document with any of its mappings in another order.
* `Overrides.fields_eq_ok_iff` says what reading the fields of a mapping comes to, and
  `bind_fields_iff_of_permuted` that whatever is made of them by their names does not know their
  order.
* `NameTable.ofList_eq_of_perm` says the same of a table.

`Overrides.ofTree_rearranged` puts them together.
-/

namespace PanelLayout

open Yaml (Tree)

/-! ## §1 Mappings -/

namespace Yaml.Tree

/-- The entries of a mapping; nothing else has any. -/
def entries : Tree → List (Tree × Tree)
  | .mapping _ entries => entries
  | _ => []

/-- The text of a key, which is a scalar. -/
def keyText? : Tree → Option String
  | .scalar _ _ text => some text
  | _ => none

/-- The texts of the keys of a mapping. -/
def keyTexts (tree : Tree) : List String := tree.entries.filterMap (·.1.keyText?)

/-- One mapping in two orders, or just the same tree. -/
inductive Permuted : Tree → Tree → Prop where
  | same (tree : Tree) : Permuted tree tree
  | mapping (tag : Option Tag) {entries entries' : List (Tree × Tree)}
      (order : entries.Perm entries') : Permuted (.mapping tag entries) (.mapping tag entries')

/-- The mapping has fields of these names only, and none twice. -/
structure HasFields (known : List String) (tree : Tree) : Prop where
  known : ∀ entry ∈ tree.entries, ∃ name ∈ known, entry.1.keyText? = some name
  distinct : tree.keyTexts.Nodup

variable {tree tree' : Tree}

theorem Permuted.symm (h : tree.Permuted tree') : tree'.Permuted tree := by
  cases h with
  | same => exact .same tree
  | mapping tag order => exact .mapping tag order.symm

theorem Permuted.entries (h : tree.Permuted tree') : tree.entries.Perm tree'.entries := by
  cases h with
  | same => exact .refl _
  | mapping tag order => exact order

theorem Permuted.keyTexts (h : tree.Permuted tree') : tree.keyTexts.Perm tree'.keyTexts :=
  h.entries.filterMap _

end Yaml.Tree

/-! ## §2 Tables -/

theorem NameTable.eq_of_entries_eq {α : Type} {first second : NameTable α}
    (h : first.entries = second.entries) : first = second := by
  obtain ⟨left, hleft⟩ := first
  obtain ⟨right, hright⟩ := second
  obtain rfl : left = right := h
  rfl

/-- Where no name is given twice, a table does not know in which order it was filled. -/
theorem NameTable.ofList_eq_of_perm {α : Type} {given given' : List (String × α)}
    (hnodup : (NamedList.names given).Nodup) (h : given.Perm given') :
    NameTable.ofList given = NameTable.ofList given' := by
  have hnodup' : (NamedList.names given').Nodup := (h.map _).nodup_iff.1 hnodup
  have hlookup : ∀ name, (ofList given).entries.lookup name = (ofList given').entries.lookup name := by
    intro name
    rw [ofList, ofList, lookup_foldl_insert hnodup, lookup_foldl_insert hnodup',
      NamedList.lookup_eq_of_perm hnodup h]
  have hperm := NamedList.perm_of_lookup (ofList given).nodup_names (ofList given').nodup_names hlookup
  -- Two orders of the same entries are one if both are ascending.
  refine eq_of_entries_eq (hperm.eq_of_pairwise ?_ (ofList given).sorted (ofList given').sorted)
  intro a b _ _ hab hba
  exact absurd (String.lt_trans hab hba) (String.lt_irrefl _)

namespace Overrides

variable {α β : Type} {wanted : String} {known seen : List String}
  {decode : String → Tree → Decoded α} {decoders : Decoders} {tree tree' : Tree}

/-! ## §3 Fields -/

theorem text_eq_ok_iff {name : String} : text wanted tree = .ok name ↔ tree.keyText? = some name := by
  cases tree <;> simp [text, Tree.keyText?]

theorem eq_entries_of_entries_eq_ok {found : List (Tree × Tree)}
    (h : entries wanted tree = .ok found) : found = tree.entries := by
  cases tree with
  | mapping tag inner => exact (Except.ok.inj h).symm
  | _ =>
    simp only [entries] at h
    split at h
    · exact (Except.ok.inj h).symm
    · cases h

/-- An entry reads as a field: its key is a known name, and its value is decoded by that name. -/
def ReadsAs (known : List String) (decode : String → Tree → Decoded α) (entry : Tree × Tree)
    (field : String × α) : Prop :=
  entry.1.keyText? = some field.1 ∧ field.1 ∈ known ∧ decode field.1 entry.2 = .ok field.2

/-- The first entry is read as a field if its name is known and new, and then the rest. -/
theorem fieldsFrom_cons_eq_ok_iff {entry : Tree × Tree} {rest : List (Tree × Tree)}
    {found : List (String × α)} :
    fieldsFrom known decode seen (entry :: rest) = .ok found ↔
      ∃ field others, found = field :: others ∧ ReadsAs known decode entry field ∧
        field.1 ∉ seen ∧ fieldsFrom known decode (field.1 :: seen) rest = .ok others := by
  obtain ⟨key, value⟩ := entry
  rw [fieldsFrom, bind_eq_ok_iff]
  constructor
  · rintro ⟨name, hname, h⟩
    split at h
    · cases h
    · rename_i hknown
      split at h
      · cases h
      · rename_i hseen
        obtain ⟨result, hresult, h⟩ := bind_eq_ok_iff.1 h
        obtain ⟨others, hothers, h⟩ := bind_eq_ok_iff.1 h
        have hread : ReadsAs known decode (key, value) (name, result) :=
          ⟨text_eq_ok_iff.1 hname, not_not.1 hknown, hresult⟩
        exact ⟨(name, result), others, (Except.ok.inj h).symm, hread, hseen, hothers⟩
  · rintro ⟨⟨name, result⟩, others, rfl, ⟨hname, hknown, hresult⟩, hseen, hothers⟩
    refine ⟨name, text_eq_ok_iff.2 hname, ?_⟩
    rw [if_neg (not_not.2 hknown), if_neg hseen]
    exact bind_eq_ok_iff.2 ⟨result, hresult, bind_eq_ok_iff.2 ⟨others, hothers, rfl⟩⟩

/-- Entries are fields if each of them reads as one, and no name stands twice. -/
theorem fieldsFrom_eq_ok_iff {entries : List (Tree × Tree)} {found : List (String × α)} :
    fieldsFrom known decode seen entries = .ok found ↔
      List.Forall₂ (ReadsAs known decode) entries found ∧ (NamedList.names found).Nodup ∧
        ∀ name ∈ NamedList.names found, name ∉ seen := by
  induction entries generalizing seen found with
  | nil =>
    rw [fieldsFrom, List.forall₂_nil_left_iff, Except.ok.injEq]
    constructor
    · rintro rfl
      exact ⟨rfl, List.nodup_nil, by simp [NamedList.names]⟩
    · exact fun h => h.1.symm
  | cons entry rest ih =>
    -- A later name is new if it is neither one of those seen before nor the first.
    rw [fieldsFrom_cons_eq_ok_iff, List.forall₂_cons_left_iff]
    constructor
    · rintro ⟨field, others, rfl, hread, hseen, hothers⟩
      obtain ⟨hreads, hnodup, hnew⟩ := ih.1 hothers
      have hfirst : field.1 ∉ NamedList.names others :=
        fun hmem => hnew field.1 hmem (List.mem_cons_self ..)
      refine ⟨⟨field, others, hread, hreads, rfl⟩, List.nodup_cons.2 ⟨hfirst, hnodup⟩, ?_⟩
      refine List.forall_mem_cons.2 ⟨hseen, fun other hother hmem => ?_⟩
      exact hnew other hother (List.mem_cons_of_mem _ hmem)
    · rintro ⟨⟨field, others, hread, hreads, rfl⟩, hnodup, hnew⟩
      obtain ⟨hfirst, hnodup⟩ := List.nodup_cons.1 hnodup
      obtain ⟨hseen, hnew⟩ := List.forall_mem_cons.1 hnew
      refine ⟨field, others, rfl, hread, hseen, ih.2 ⟨hreads, hnodup, fun other hother hmem => ?_⟩⟩
      rcases List.mem_cons.1 hmem with rfl | hmem
      · exact hfirst hother
      · exact hnew other hother hmem

/-- The fields of a mapping are what its entries read as, if none stands twice. -/
theorem fields_eq_ok_iff {found : List (String × α)} :
    fields wanted known decode tree = .ok found ↔
      entries wanted tree = .ok tree.entries ∧
        List.Forall₂ (ReadsAs known decode) tree.entries found ∧ (NamedList.names found).Nodup := by
  have hseen : ∀ name ∈ NamedList.names found, name ∉ ([] : List String) :=
    fun _ _ => List.not_mem_nil
  rw [fields, bind_eq_ok_iff]
  constructor
  · rintro ⟨inner, hinner, h⟩
    obtain rfl := eq_entries_of_entries_eq_ok hinner
    obtain ⟨hreads, hnodup, -⟩ := fieldsFrom_eq_ok_iff.1 h
    exact ⟨hinner, hreads, hnodup⟩
  · rintro ⟨hinner, hreads, hnodup⟩
    exact ⟨tree.entries, hinner, fieldsFrom_eq_ok_iff.2 ⟨hreads, hnodup, hseen⟩⟩

theorem names_of_forall₂ {inner : List (Tree × Tree)} {found : List (String × α)}
    (h : List.Forall₂ (fun entry field => entry.1.keyText? = some field.1) inner found) :
    inner.filterMap (·.1.keyText?) = NamedList.names found := by
  induction h with
  | nil => rfl
  | cons hkey _ ih =>
    rw [List.filterMap_cons, hkey, ih]
    rfl

/-- What has fields has known fields only, and none twice. -/
theorem hasFields_of_fields_eq_ok {found : List (String × α)}
    (h : fields wanted known decode tree = .ok found) : tree.HasFields known := by
  obtain ⟨-, hreads, hnodup⟩ := fields_eq_ok_iff.1 h
  constructor
  · intro entry hentry
    obtain ⟨field, -, hread⟩ := exists_mem_of_forall₂ hreads hentry
    exact ⟨field.1, hread.2.1, hread.1⟩
  · rw [Tree.keyTexts, names_of_forall₂ (hreads.imp fun _ _ hread => hread.1)]
    exact hnodup

/-- What is read as a mapping is so in any order. -/
theorem entries_eq_ok_of_permuted (h : tree.Permuted tree')
    (hinner : entries wanted tree = .ok tree.entries) :
    entries wanted tree' = .ok tree'.entries := by
  cases h with
  | same => exact hinner
  | mapping tag order => rfl

/-- In another order a mapping has the same fields in another order. -/
theorem exists_fields_of_permuted (h : tree.Permuted tree') {found : List (String × α)}
    (hfound : fields wanted known decode tree = .ok found) :
    ∃ found', fields wanted known decode tree' = .ok found' ∧ found.Perm found' := by
  obtain ⟨hinner, hreads, hnodup⟩ := fields_eq_ok_iff.1 hfound
  obtain ⟨found', hreads', hperm⟩ := List.perm_comp_forall₂ h.symm.entries hreads
  have hnodup' : (NamedList.names found').Nodup := (hperm.map _).nodup_iff.2 hnodup
  refine ⟨found', fields_eq_ok_iff.2 ⟨?_, hreads', hnodup'⟩, hperm.symm⟩
  exact entries_eq_ok_of_permuted h hinner

/-- What is made of fields by their names does not know in which order they stand. -/
theorem bind_fields_iff_of_permuted {finish : List (String × α) → Decoded β}
    (hfinish : ∀ found found', (NamedList.names found).Nodup →
      (∀ field ∈ found, ∃ value, decode field.1 value = .ok field.2) → found.Perm found' →
        finish found = finish found')
    (h : tree.Permuted tree') (result : β) :
    fields wanted known decode tree >>= finish = .ok result ↔
      fields wanted known decode tree' >>= finish = .ok result := by
  -- One direction is enough, since the other order is an order as well.
  have hone : ∀ {tree tree' : Tree}, tree.Permuted tree' →
      fields wanted known decode tree >>= finish = .ok result →
        fields wanted known decode tree' >>= finish = .ok result := by
    intro tree tree' h hresult
    obtain ⟨found, hfound, hresult⟩ := bind_eq_ok_iff.1 hresult
    obtain ⟨-, hreads, hnodup⟩ := fields_eq_ok_iff.1 hfound
    obtain ⟨found', hfound', hperm⟩ := exists_fields_of_permuted h hfound
    have hdecoded : ∀ field ∈ found, ∃ value, decode field.1 value = .ok field.2 := by
      intro field hfield
      obtain ⟨entry, -, hread⟩ := exists_mem_of_forall₂ (List.Forall₂.flip hreads) hfield
      exact ⟨entry.2, hread.2.2⟩
    rw [hfinish found found' hnodup hdecoded hperm] at hresult
    exact bind_eq_ok_iff.2 ⟨found', hfound', hresult⟩
  exact ⟨hone h, hone h.symm⟩

/-! ## §4 What settings hold -/

theorem canvasOfTree_iff_of_permuted (h : tree.Permuted tree') (canvas : Canvas) :
    canvasOfTree decoders tree = .ok canvas ↔ canvasOfTree decoders tree' = .ok canvas := by
  refine bind_fields_iff_of_permuted (fun found found' hnodup _ hperm => ?_) h canvas
  simp only [required, NamedList.lookup_eq_of_perm hnodup hperm]

theorem limitsOfTree_iff_of_permuted (h : tree.Permuted tree') (limits : LimitOverrides) :
    limitsOfTree decoders tree = .ok limits ↔ limitsOfTree decoders tree' = .ok limits := by
  refine bind_fields_iff_of_permuted (fun found found' hnodup _ hperm => ?_) h limits
  simp only [NamedList.lookup_eq_of_perm hnodup hperm]

theorem table_eq_ok_iff {decode : Tree → Decoded α} {result : NameTable α} :
    table decode tree = .ok result ↔
      entries "a map" tree = .ok tree.entries ∧ ∃ named, NameTable.ofList named = result ∧
        List.Forall₂ (fun entry field => entry.1.keyText? = some field.1 ∧
          decode entry.2 = .ok field.2) tree.entries named := by
  have hentry : ∀ (entry : Tree × Tree) (field : String × α),
      (do let name ← text "a string" entry.1
          let value ← decode entry.2
          .ok (name, value)) = .ok field ↔
        entry.1.keyText? = some field.1 ∧ decode entry.2 = .ok field.2 := by
    intro entry field
    simp only [bind_eq_ok_iff, text_eq_ok_iff, Except.ok.injEq]
    constructor
    · rintro ⟨name, hname, value, hvalue, rfl⟩
      exact ⟨hname, hvalue⟩
    · rintro ⟨hname, hvalue⟩
      exact ⟨field.1, hname, field.2, hvalue, rfl⟩
  rw [table, bind_eq_ok_iff]
  constructor
  · rintro ⟨inner, hinner, h⟩
    obtain rfl := eq_entries_of_entries_eq_ok hinner
    obtain ⟨named, hnamed, h⟩ := bind_eq_ok_iff.1 h
    refine ⟨hinner, named, Except.ok.inj h, ?_⟩
    exact (mapM_eq_ok_iff.1 hnamed).imp fun entry field => (hentry entry field).1
  · rintro ⟨hinner, named, rfl, hnamed⟩
    refine ⟨tree.entries, hinner, bind_eq_ok_iff.2 ⟨named, mapM_eq_ok_iff.2 ?_, rfl⟩⟩
    exact hnamed.imp fun entry field => (hentry entry field).2

/-- A table with no name twice does not know in which order its names stand. -/
theorem table_iff_of_permuted {decode : Tree → Decoded α} (hdistinct : tree.keyTexts.Nodup)
    (h : tree.Permuted tree') (result : NameTable α) :
    table decode tree = .ok result ↔ table decode tree' = .ok result := by
  have hone : ∀ {tree tree' : Tree}, tree.keyTexts.Nodup → tree.Permuted tree' →
      table decode tree = .ok result → table decode tree' = .ok result := by
    intro tree tree' hdistinct h hresult
    obtain ⟨hinner, named, rfl, hnamed⟩ := table_eq_ok_iff.1 hresult
    obtain ⟨named', hnamed', hperm⟩ := List.perm_comp_forall₂ h.symm.entries hnamed
    -- The names of the table are the texts of its keys.
    have hnodup : (NamedList.names named).Nodup := by
      rw [← names_of_forall₂ (hnamed.imp fun _ _ hentry => hentry.1)]
      exact hdistinct
    exact table_eq_ok_iff.2 ⟨entries_eq_ok_of_permuted h hinner, named',
      (NameTable.ofList_eq_of_perm hnodup hperm.symm).symm, hnamed'⟩
  exact ⟨hone hdistinct h, hone (h.keyTexts.nodup_iff.1 hdistinct) h.symm⟩

/-- What may be left out knows an order no more than what it is made of. -/
theorem map_optional_iff_of_permuted {decode : Tree → Decoded α} {wrap : Option α → β}
    (hdecode : ∀ value, decode tree = .ok value ↔ decode tree' = .ok value)
    (h : tree.Permuted tree') (result : β) :
    (optional decode tree).map wrap = .ok result ↔ (optional decode tree').map wrap = .ok result := by
  cases h with
  | same => exact Iff.rfl
  | mapping tag order =>
    show ((decode _).map some).map wrap = .ok result ↔ ((decode _).map some).map wrap = .ok result
    simp only [map_eq_ok_iff, hdecode]

/-- Fields that may be left out are known ones as well. -/
theorem hasFields_of_optional {finish : List (String × α) → Decoded β} {result : Option β}
    (h : optional (fun tree => fields wanted known decode tree >>= finish) tree = .ok result) :
    tree.HasFields known := by
  have hvalue : (fields wanted known decode tree >>= finish).map some = .ok result →
      tree.HasFields known := by
    intro hvalue
    obtain ⟨inner, hinner, -⟩ := map_eq_ok_iff.1 hvalue
    obtain ⟨found, hfound, -⟩ := bind_eq_ok_iff.1 hinner
    exact hasFields_of_fields_eq_ok hfound
  cases tree with
  | scalar tag style text => exact ⟨fun _ hentry => (List.not_mem_nil hentry).elim, List.nodup_nil⟩
  | _ => exact hvalue h

/-! ## §5 Settings -/

/-- The name of the setting. -/
def Setting.name : Setting → String
  | .canvas _ => "canvas"
  | .fontSizes _ => "font_sizes"
  | .iconModules _ => "icon_modules"
  | .limits _ => "limits"
  | .maxLengths _ => "max_lengths"

theorem name_of_settingOfTree {name : String} {setting : Setting}
    (h : settingOfTree decoders name tree = .ok setting) : setting.name = name := by
  unfold settingOfTree at h
  split at h
  case h_6 => cases h
  all_goals
    obtain ⟨value, -, rfl⟩ := map_eq_ok_iff.1 h
    rfl

/-- Settings of two names have their own places. -/
theorem put_comm (overrides : Overrides) {a b : Setting} (h : a.name ≠ b.name) :
    (overrides.put a).put b = (overrides.put b).put a := by
  cases a <;> cases b <;> first | rfl | exact absurd rfl h

theorem foldl_put_eq_of_perm {found found' : List (String × Setting)}
    (hnodup : (NamedList.names found).Nodup) (hname : ∀ field ∈ found, field.2.name = field.1)
    (h : found.Perm found') (overrides : Overrides) :
    found.foldl (fun overrides (_, setting) => overrides.put setting) overrides =
      found'.foldl (fun overrides (_, setting) => overrides.put setting) overrides := by
  refine h.foldl_eq' (fun a ha b hb overrides => ?_) overrides
  -- Two fields that are not one have two names, since no name stands twice.
  by_cases heq : a = b
  · rw [heq]
  · apply put_comm
    rw [hname a ha, hname b hb]
    exact fun hsame => heq (List.inj_on_of_nodup_map hnodup ha hb hsame)

/-- The value of a setting in another order: the fields of `canvas` or `limits`, or the names of a
table, no two of which must be one text. -/
inductive SettingRearranged (name : String) (tree tree' : Tree) : Prop where
  | fields (kind : name ∈ ["canvas", "limits"]) (order : tree.Permuted tree')
  | names (kind : name ∈ ["font_sizes", "max_lengths"]) (distinct : tree.keyTexts.Nodup)
      (order : tree.Permuted tree')

theorem settingOfTree_iff_of_rearranged {name : String}
    (h : SettingRearranged name tree tree') (setting : Setting) :
    settingOfTree decoders name tree = .ok setting ↔
      settingOfTree decoders name tree' = .ok setting := by
  cases h with
  | fields kind order =>
    simp only [List.mem_cons, List.not_mem_nil, or_false] at kind
    rcases kind with rfl | rfl
    · exact map_optional_iff_of_permuted (canvasOfTree_iff_of_permuted order) order setting
    · exact map_optional_iff_of_permuted (limitsOfTree_iff_of_permuted order) order setting
  | names kind distinct order =>
    simp only [List.mem_cons, List.not_mem_nil, or_false] at kind
    rcases kind with rfl | rfl
    · exact map_optional_iff_of_permuted (table_iff_of_permuted distinct order) order setting
    · exact map_optional_iff_of_permuted (table_iff_of_permuted distinct order) order setting

/-! ## §6 Override documents -/

/-- An entry of an override document, with what its setting holds in another order. -/
inductive EntryRearranged : Tree × Tree → Tree × Tree → Prop where
  | same (entry : Tree × Tree) : EntryRearranged entry entry
  | setting {key value value' : Tree} {name : String} (text : key.keyText? = some name)
      (inner : SettingRearranged name value value') : EntryRearranged (key, value) (key, value')

/-- An override document with its settings in another order, and with what they hold in another
order. -/
inductive Rearranged : Tree → Tree → Prop where
  | same (tree : Tree) : Rearranged tree tree
  | mapping (tag : Option Yaml.Tag) {given between given' : List (Tree × Tree)}
      (inner : List.Forall₂ EntryRearranged given between) (order : between.Perm given') :
      Rearranged (.mapping tag given) (.mapping tag given')

theorem readsAs_iff_of_rearranged {entry entry' : Tree × Tree} (h : EntryRearranged entry entry')
    (field : String × Setting) :
    ReadsAs settingNames (settingOfTree decoders) entry field ↔
      ReadsAs settingNames (settingOfTree decoders) entry' field := by
  cases h with
  | same => exact Iff.rfl
  | setting text inner =>
    refine and_congr_right fun hname => and_congr_right fun _ => ?_
    -- The value is decoded by the name that its key has as its text.
    obtain rfl : _ = field.1 := Option.some.inj (text.symm.trans hname)
    exact settingOfTree_iff_of_rearranged inner field.2

theorem forall₂_readsAs_iff {given between : List (Tree × Tree)}
    (h : List.Forall₂ EntryRearranged given between) (found : List (String × Setting)) :
    List.Forall₂ (ReadsAs settingNames (settingOfTree decoders)) given found ↔
      List.Forall₂ (ReadsAs settingNames (settingOfTree decoders)) between found := by
  induction h generalizing found with
  | nil => exact Iff.rfl
  | cons hentry _ ih =>
    rw [List.forall₂_cons_left_iff, List.forall₂_cons_left_iff]
    simp only [readsAs_iff_of_rearranged hentry, ih]

/-- Rearranged documents describe the same overrides. -/
theorem ofTree_iff_of_rearranged {document document' : Tree} (h : Rearranged document document')
    (overrides : Overrides) :
    ofTreeBy decoders document = .ok overrides ↔ ofTreeBy decoders document' = .ok overrides := by
  cases h with
  | same => exact Iff.rfl
  | @mapping tag given between given' inner order =>
    -- In between, only what the settings hold stands in another order.
    have hinner : ofTreeBy decoders (.mapping tag given) = .ok overrides ↔
        ofTreeBy decoders (.mapping tag between) = .ok overrides := by
      have hfields : ∀ found,
          fields "struct RuleOverrides" settingNames (settingOfTree decoders)
              (.mapping tag given) = .ok found ↔
            fields "struct RuleOverrides" settingNames (settingOfTree decoders)
              (.mapping tag between) = .ok found := by
        intro found
        rw [fields_eq_ok_iff, fields_eq_ok_iff]
        exact and_congr ⟨fun _ => rfl, fun _ => rfl⟩
          (and_congr_left fun _ => forall₂_readsAs_iff inner found)
      simp only [ofTreeBy, bind_eq_ok_iff, hfields]
    rw [hinner]
    refine bind_fields_iff_of_permuted (fun found found' hnodup hdecoded hperm => ?_)
      (.mapping tag order) overrides
    have hname : ∀ field ∈ found, field.2.name = field.1 := by
      intro field hfield
      obtain ⟨value, hvalue⟩ := hdecoded field hfield
      exact name_of_settingOfTree hvalue
    rw [foldl_put_eq_of_perm hnodup hname hperm]

/-- An accepted document has known fields only, and so have its `canvas` and its `limits`. -/
theorem hasFields_of_ofTree {document : Tree} {overrides : Overrides}
    (h : ofTreeBy decoders document = .ok overrides) :
    document.HasFields settingNames ∧
      ∀ key value, (key, value) ∈ document.entries →
        (key.keyText? = some "canvas" → value.HasFields ["width", "height"]) ∧
        (key.keyText? = some "limits" →
          value.HasFields ["max_node_depth", "max_children", "max_expression_depth"]) := by
  obtain ⟨found, hfound, -⟩ := bind_eq_ok_iff.1 h
  refine ⟨hasFields_of_fields_eq_ok hfound, fun key value hentry => ?_⟩
  obtain ⟨-, hreads, -⟩ := fields_eq_ok_iff.1 hfound
  obtain ⟨⟨name, setting⟩, -, hname, -, hsetting⟩ := exists_mem_of_forall₂ hreads hentry
  -- The entry was decoded by the name that its key has.
  constructor
  · intro hkey
    obtain rfl : "canvas" = name := Option.some.inj (hkey.symm.trans hname)
    obtain ⟨canvas, hcanvas, -⟩ := map_eq_ok_iff.1 hsetting
    exact hasFields_of_optional hcanvas
  · intro hkey
    obtain rfl : "limits" = name := Option.some.inj (hkey.symm.trans hname)
    obtain ⟨limits, hlimits, -⟩ := map_eq_ok_iff.1 hsetting
    exact hasFields_of_optional hlimits

/-- Whatever order they were written in, new aliases are appended in ascending order. -/
theorem exists_names_fontSizes_of_apply {overrides : Overrides} {base rules : RuleSet}
    (h : overrides.apply base = .ok rules) :
    ∃ new, NamedList.names rules.fontSizes = NamedList.names base.fontSizes ++ new ∧
      new.Pairwise (· < ·) := by
  obtain ⟨-, rfl⟩ := apply_eq_ok_iff.1 h
  refine ⟨_, NamedList.names_setAll (nodup_names_entriesOf overrides.fontSizes), ?_⟩
  have hsorted : (NamedList.names (entriesOf overrides.fontSizes)).Pairwise (· < ·) :=
    List.pairwise_map.2 (sorted_entriesOf overrides.fontSizes)
  exact hsorted.filter _

/-- **The order of keys does not matter**, however single values are read.  Let two override documents
differ in the order of their settings, of the fields of `canvas` and `limits`, and of the names of
their tables, no two names of a table being one text.  Both are accepted or none is, and then they
describe the same overrides, so that they do the same to all rules, down to the order of new aliases,
which is ascending in any case.  And a document is accepted only if its fields and those of its
`canvas` and `limits` are known ones, none of them twice, wherever they stand. -/
theorem ofTree_rearranged (decoders : Decoders) {document document' : Tree}
    (h : Rearranged document document') :
    (∀ overrides,
      ofTreeBy decoders document = .ok overrides ↔ ofTreeBy decoders document' = .ok overrides) ∧
    (∀ base, (ofTreeBy decoders document).toOption.map (·.apply base) =
      (ofTreeBy decoders document').toOption.map (·.apply base)) ∧
    ∀ overrides, ofTreeBy decoders document = .ok overrides →
      (∀ base rules, overrides.apply base = .ok rules →
        ∃ new, NamedList.names rules.fontSizes = NamedList.names base.fontSizes ++ new ∧
          new.Pairwise (· < ·)) ∧
      document.HasFields settingNames ∧
      ∀ key value, (key, value) ∈ document.entries →
        (key.keyText? = some "canvas" → value.HasFields ["width", "height"]) ∧
        (key.keyText? = some "limits" →
          value.HasFields ["max_node_depth", "max_children", "max_expression_depth"]) := by
  have hsame : ∀ overrides,
      ofTreeBy decoders document = .ok overrides ↔ ofTreeBy decoders document' = .ok overrides :=
    ofTree_iff_of_rearranged h
  have hoption :
      (ofTreeBy decoders document).toOption = (ofTreeBy decoders document').toOption := by
    cases hleft : ofTreeBy decoders document with
    | ok overrides => rw [(hsame overrides).1 hleft]
    | error cause =>
      cases hright : ofTreeBy decoders document' with
      | ok overrides =>
        rw [(hsame overrides).2 hright] at hleft
        cases hleft
      | error cause' => rfl
  refine ⟨hsame, fun base => by rw [hoption], fun overrides hoverrides => ⟨?_, ?_⟩⟩
  · exact fun base rules happly => exists_names_fontSizes_of_apply happly
  · exact hasFields_of_ofTree hoverrides

/-- A plain scalar of that text. -/
def plain (text : String) : Tree := .scalar .none .plain text

/-- A document with two limits and two aliases. -/
def twoLimits : Tree :=
  .mapping .none
    [(plain "limits", .mapping .none
      [(plain "max_children", plain "3"), (plain "max_node_depth", plain "4")]),
      (plain "font_sizes", .mapping .none [(plain "Tiny", plain "8"), (plain "Big", plain "40")])]

/-- The same document with all its keys the other way round. -/
def twoLimitsReversed : Tree :=
  .mapping .none
    [(plain "font_sizes", .mapping .none [(plain "Big", plain "40"), (plain "Tiny", plain "8")]),
      (plain "limits", .mapping .none
        [(plain "max_node_depth", plain "4"), (plain "max_children", plain "3")])]

/-- Both are accepted, with the same overrides. -/
theorem ofTree_rearranged_twoLimits :
    Rearranged twoLimits twoLimitsReversed ∧
      ∃ overrides, ofTree twoLimits = .ok overrides ∧ ofTree twoLimitsReversed = .ok overrides ∧
        twoLimitsReversed.HasFields settingNames := by
  have h : Rearranged twoLimits twoLimitsReversed :=
    .mapping .none
      (.cons (.setting rfl (.fields (by decide) (.mapping .none (.swap ..))))
        (.cons (.setting rfl (.names (by decide) (by decide) (.mapping .none (.swap ..)))) .nil))
      (.swap ..)
  have haccepted : (ofTree twoLimits).toOption.isSome = true := by decide +kernel
  obtain ⟨hsame, -, -⟩ := ofTree_rearranged .typed h
  obtain ⟨-, -, hfields⟩ := ofTree_rearranged .typed (.same twoLimitsReversed)
  cases hoverrides : ofTree twoLimits with
  | error cause =>
    rw [hoverrides] at haccepted
    cases haccepted
  | ok overrides =>
    have hreversed := (hsame overrides).1 hoverrides
    exact ⟨h, overrides, rfl, hreversed, (hfields overrides hreversed).2.1⟩

end Overrides

end PanelLayout
