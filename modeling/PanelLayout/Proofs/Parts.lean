import Mathlib.Data.List.Nodup

/-!
# Lists joined from parts

What a layout is told is joined from parts: from the stops of the walk, from the checks of a node,
from the rows of a table.  On every level an item tells the part from which it comes.  So the items
of one part can be picked out again (`filter_flatMap_of_key`), each is there as often as in its part
(`count_flatMap_of_key`), and there are no duplicates but those within a part
(`nodup_flatMap_of_key`).
-/

namespace PanelLayout

variable {ι κ α : Type} {parts : List ι} {items : ι → List α} (tag : ι → κ) (key : α → κ)

/-- The items that tell a part are those of the part. -/
theorem filter_flatMap_of_key [DecidableEq κ] (htags : (parts.map tag).Nodup)
    (hkey : ∀ part ∈ parts, ∀ item ∈ items part, key item = tag part) {part : ι}
    (hpart : part ∈ parts) :
    (parts.flatMap items).filter (fun item => key item = tag part) = items part := by
  obtain ⟨before, after, rfl⟩ := List.append_of_mem hpart
  rw [List.map_append, List.map_cons, List.nodup_append, List.nodup_cons] at htags
  obtain ⟨-, ⟨hafter, -⟩, hbefore⟩ := htags
  have hown : (items part).filter (fun item => key item = tag part) = items part :=
    List.filter_eq_self.2 fun item hitem => decide_eq_true (hkey part hpart item hitem)
  -- All other parts have other tags.
  have hother : ∀ others : List ι, others ⊆ before ++ part :: after →
      (∀ other ∈ others, tag other ≠ tag part) →
      (others.flatMap items).filter (fun item => key item = tag part) = [] := by
    intro others hsubset hne
    rw [List.filter_eq_nil_iff]
    intro item hitem
    obtain ⟨other, hmem, hitem⟩ := List.mem_flatMap.1 hitem
    rw [hkey other (hsubset hmem) item hitem, decide_eq_true_eq]
    exact hne other hmem
  rw [List.flatMap_append, List.flatMap_cons, List.filter_append, List.filter_append, hown,
    hother before (List.subset_append_left ..) fun other hmem =>
      hbefore _ (List.mem_map_of_mem hmem) _ (List.mem_cons_self ..),
    hother after (fun _ hmem => List.mem_append_right _ (List.mem_cons_of_mem _ hmem))
      fun other hmem heq => hafter (heq ▸ List.mem_map_of_mem hmem),
    List.nil_append, List.append_nil]

/-- An item is there as often as in the part that it tells. -/
theorem count_flatMap_of_key [BEq α] [LawfulBEq α] [DecidableEq κ] (htags : (parts.map tag).Nodup)
    (hkey : ∀ part ∈ parts, ∀ item ∈ items part, key item = tag part) {part : ι}
    (hpart : part ∈ parts) {item : α} (hitem : key item = tag part) :
    (parts.flatMap items).count item = (items part).count item := by
  rw [← filter_flatMap_of_key tag key htags hkey hpart]
  exact (List.count_filter (by simpa using hitem)).symm

/-- There are no duplicates if there are none in any part. -/
theorem nodup_flatMap_of_key (htags : (parts.map tag).Nodup)
    (hkey : ∀ part ∈ parts, ∀ item ∈ items part, key item = tag part)
    (hitems : ∀ part ∈ parts, (items part).Nodup) : (parts.flatMap items).Nodup := by
  rw [List.nodup_flatMap]
  refine ⟨hitems, (List.pairwise_map.1 htags).imp_of_mem ?_⟩
  intro a b ha hb hne
  -- An item of both would tell both parts.
  exact fun item hitem hitem' => hne ((hkey a ha item hitem).symm.trans (hkey b hb item hitem'))

end PanelLayout
