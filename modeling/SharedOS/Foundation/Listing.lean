/-
SharedOS.Foundation.Listing — listings: collections deduplicated by one key and sorted by another.

A listing is built by inserting items into an insertion-ordered map and then sorting its values.
When both keys are injective the listing depends on the items only as a set
(`sortedListing_eq_of_mem_iff`), whatever order they arrived in and however often.
-/
import Mathlib.Data.List.Perm.Subperm
import Mathlib.Data.List.Sort
import Mathlib.Logic.Function.Basic

namespace SharedOS.Foundation

variable {α κ β : Type*}

/-- Set one item in an insertion-ordered map: an item whose key is present is replaced in place. -/
def setByKey [DecidableEq κ] (key : α → κ) (items : List α) (item : α) : List α :=
  if items.any fun other => key other = key item then
    items.map fun other => if key other = key item then item else other
  else items ++ [item]

/-- Sort by a key. -/
def sortByKey [LinearOrder β] (key : α → β) (items : List α) : List α :=
  items.insertionSort fun a b => key a ≤ key b

/-- The keys of the map, whatever they are keys of. -/
theorem mem_keys_setByKey [DecidableEq κ] {key : α → κ} {items : List α} {item : α} {k : κ} :
    k ∈ (setByKey key items item).map key ↔ k ∈ items.map key ∨ k = key item := by
  unfold setByKey
  split
  · next hany =>
      obtain ⟨present, hpresent, hsame⟩ := List.any_eq_true.mp hany
      have hkeys : (items.map fun other => if key other = key item then item else other).map key =
          items.map key := by
        rw [List.map_map]
        refine List.map_congr_left fun other _ => ?_
        by_cases hother : key other = key item <;> simp [hother]
      rw [hkeys, iff_self_or]
      rintro rfl
      exact List.mem_map.mpr ⟨present, hpresent, of_decide_eq_true hsame⟩
  · simp

/-- The keys of the map are set as a set is. -/
theorem keys_setByKey [DecidableEq κ] {key : α → κ} {items : List α} {item : α} :
    (setByKey key items item).map key = setByKey id (items.map key) (key item) := by
  unfold setByKey
  rw [List.any_map]
  show _ = if (items.any fun other => key other = key item) = true then _ else _
  split
  · rw [List.map_map, List.map_map]
    refine List.map_congr_left fun other _ => ?_
    by_cases hother : key other = key item <;> simp [hother]
  · simp

/-- What every item set has, every item of the map has. -/
theorem forall_setByKey [DecidableEq κ] {key : α → κ} {P : α → Prop} {items : List α} {item : α}
    (h : ∀ x ∈ items, P x) (hitem : P item) : ∀ x ∈ setByKey key items item, P x := by
  unfold setByKey
  split
  · intro x hx
    obtain ⟨other, hother, rfl⟩ := List.mem_map.mp hx
    split
    · exact hitem
    · exact h other hother
  · intro x hx
    rcases List.mem_append.mp hx with hx | hx
    · exact h x hx
    · rw [List.mem_singleton.mp hx]
      exact hitem

/-- With a key of its own, an item is appended. -/
theorem setByKey_fresh [DecidableEq κ] {key : α → κ} {items : List α} {item : α}
    (h : key item ∉ items.map key) : setByKey key items item = items ++ [item] := by
  refine if_neg fun hany => h ?_
  obtain ⟨present, hpresent, hsame⟩ := List.any_eq_true.mp hany
  exact List.mem_map.mpr ⟨present, hpresent, of_decide_eq_true hsame⟩

theorem length_setByKey_present [DecidableEq κ] {key : α → κ} {items : List α} {item : α}
    (h : key item ∈ items.map key) : (setByKey key items item).length = items.length := by
  obtain ⟨present, hpresent, hsame⟩ := List.mem_map.mp h
  unfold setByKey
  rw [if_pos (List.any_eq_true.mpr ⟨present, hpresent, decide_eq_true hsame⟩), List.length_map]

theorem length_foldl_setByKey_le [DecidableEq κ] {key : α → κ} {items added : List α} :
    (added.foldl (setByKey key) items).length ≤ items.length + added.length := by
  induction added generalizing items with
  | nil => simp
  | cons item rest ih =>
      refine le_trans ih ?_
      rw [List.length_cons]
      by_cases hitem : key item ∈ items.map key
      · rw [length_setByKey_present hitem]
        omega
      · rw [setByKey_fresh hitem, List.length_append, List.length_singleton]
        omega

/-- **A map holds just what was put in** when no key came twice. -/
theorem foldl_setByKey_fresh [DecidableEq κ] {key : α → κ} {items added : List α}
    (h : ((items ++ added).map key).Nodup) :
    added.foldl (setByKey key) items = items ++ added := by
  induction added generalizing items with
  | nil => simp
  | cons item rest ih =>
      have hitem : key item ∉ items.map key := by
        rw [List.map_append, List.nodup_append] at h
        exact fun hmem => h.2.2 _ hmem _ (List.mem_map_of_mem List.mem_cons_self) rfl
      have hrest : ((items ++ [item]) ++ rest) = items ++ item :: rest := by simp
      rw [List.foldl_cons, setByKey_fresh hitem, ih (by rwa [hrest]), hrest]

/-- **A map is as long as what was put in** only when no key came twice. -/
theorem nodup_of_length_foldl_setByKey [DecidableEq κ] {key : α → κ} {items added : List α}
    (hitems : (items.map key).Nodup)
    (h : (added.foldl (setByKey key) items).length = items.length + added.length) :
    ((items ++ added).map key).Nodup := by
  induction added generalizing items with
  | nil => simpa using hitems
  | cons item rest ih =>
      rw [List.foldl_cons, List.length_cons] at h
      by_cases hitem : key item ∈ items.map key
      · have hle := @length_foldl_setByKey_le _ _ _ key (setByKey key items item) rest
        rw [length_setByKey_present hitem] at hle
        omega
      · rw [setByKey_fresh hitem] at h
        have hrest : ((items ++ [item]) ++ rest) = items ++ item :: rest := by simp
        rw [← hrest]
        refine ih ?_ (by rw [h, List.length_append, List.length_singleton]; omega)
        rw [List.map_append, List.map_singleton]
        exact List.nodup_append.mpr ⟨hitems, List.nodup_singleton _, fun k hk k' hk' heq =>
          hitem (List.mem_singleton.mp hk' ▸ heq ▸ hk)⟩

section Set

variable [DecidableEq κ] {key : α → κ} (hkey : Function.Injective key)
include hkey

/-- With an injective key, setting an item that is present changes nothing. -/
theorem setByKey_eq (items : List α) (item : α) [Decidable (item ∈ items)] :
    setByKey key items item = if item ∈ items then items else items ++ [item] := by
  have hany : (items.any fun other => key other = key item) = true ↔ item ∈ items := by
    simp only [List.any_eq_true, decide_eq_true_eq]
    constructor
    · rintro ⟨other, hmem, heq⟩
      rwa [← hkey heq]
    · exact fun hmem => ⟨item, hmem, rfl⟩
  have hmap : (items.map fun other => if key other = key item then item else other) = items := by
    refine (List.map_congr_left fun other _ => ?_).trans (List.map_id items)
    by_cases heq : key other = key item
    · rw [if_pos heq, hkey heq, id]
    · rw [if_neg heq, id]
  unfold setByKey
  rw [hmap]
  exact if_congr hany rfl rfl

theorem mem_setByKey {items : List α} {item x : α} :
    x ∈ setByKey key items item ↔ x ∈ items ∨ x = item := by
  classical
  rw [setByKey_eq hkey]
  split_ifs with hmem
  · constructor
    · exact .inl
    · rintro (h | rfl)
      · exact h
      · exact hmem
  · rw [List.mem_append, List.mem_singleton]

theorem nodup_setByKey {items : List α} {item : α} (h : items.Nodup) :
    (setByKey key items item).Nodup := by
  classical
  rw [setByKey_eq hkey]
  split_ifs with hmem
  · exact h
  · rw [List.nodup_append]
    refine ⟨h, List.nodup_singleton item, fun a ha b hb heq => ?_⟩
    rw [List.mem_singleton.mp hb] at heq
    exact hmem (heq ▸ ha)

theorem mem_foldl_setByKey {items added : List α} {x : α} :
    x ∈ added.foldl (setByKey key) items ↔ x ∈ items ∨ x ∈ added := by
  induction added generalizing items with
  | nil => simp
  | cons a added ih =>
      rw [List.foldl_cons, ih, mem_setByKey hkey, List.mem_cons, or_assoc]

theorem nodup_foldl_setByKey {items added : List α} (h : items.Nodup) :
    (added.foldl (setByKey key) items).Nodup := by
  induction added generalizing items with
  | nil => exact h
  | cons a added ih => exact ih (nodup_setByKey hkey h)

end Set

@[simp] theorem mem_sortByKey [LinearOrder β] {key : α → β} {items : List α} {x : α} :
    x ∈ sortByKey key items ↔ x ∈ items :=
  List.mem_insertionSort _

/-- **A sorted listing depends on its items only as a set.** -/
theorem sortedListing_eq_of_mem_iff [LinearOrder β] {key : α → β}
    (hkey : Function.Injective key) {xs ys : List α} (hxs : xs.Nodup) (hys : ys.Nodup)
    (h : ∀ x, x ∈ xs ↔ x ∈ ys) : sortByKey key xs = sortByKey key ys := by
  have hperm : (sortByKey key xs).Perm (sortByKey key ys) :=
    (List.perm_insertionSort _ xs).trans
      (((List.perm_ext_iff_of_nodup hxs hys).mpr h).trans (List.perm_insertionSort _ ys).symm)
  have htotal : Std.Total fun a b : α => key a ≤ key b := ⟨fun a b => le_total (key a) (key b)⟩
  have htrans : IsTrans α fun a b : α => key a ≤ key b := ⟨fun _ _ _ => le_trans⟩
  have hanti : Std.Antisymm fun a b : α => key a ≤ key b :=
    ⟨fun _ _ hab hba => hkey (le_antisymm hab hba)⟩
  exact List.Perm.eq_of_pairwise' (List.pairwise_insertionSort _ xs)
    (List.pairwise_insertionSort _ ys) hperm

end SharedOS.Foundation
