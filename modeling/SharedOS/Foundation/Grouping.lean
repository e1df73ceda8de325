/-
SharedOS.Foundation.Grouping — one pass over a list that groups its items by a key.

The pass keeps an insertion-ordered map. Under each key it collects the distinct values of the items
seen there and counts the items. `tallied_tally` says what the map holds after any pass: each key
once, under it the union of its items' values, and counts that sum to the number of items.
-/
import Mathlib.Algebra.BigOperators.Group.List.Basic
import Mathlib.Algebra.Order.Group.Nat
import Mathlib.Algebra.Ring.Nat
import Mathlib.Data.List.Dedup
import SharedOS.Foundation.Listing

namespace SharedOS.Foundation

/-- What a map keeps under one key. -/
structure Tally (κ α : Type) where
  key : κ
  values : List α
  count : ℕ

section Tally

variable {κ α β : Type} [DecidableEq κ] [DecidableEq α]

/-- A key seen for the first time. -/
def Tally.fresh (key : κ) : Tally κ α where
  key := key
  values := []
  count := 0

/-- Every value is added to the set, and the item is counted. -/
def Tally.add (row : Tally κ α) (values : List α) : Tally κ α :=
  { row with
    values := values.foldl (setByKey id) row.values
    count := row.count + 1 }

omit [DecidableEq κ] in
@[simp] theorem Tally.add_key (row : Tally κ α) (values : List α) :
    (row.add values).key = row.key := rfl

omit [DecidableEq κ] [DecidableEq α] in
@[simp] theorem Tally.fresh_key (key : κ) : (Tally.fresh key : Tally κ α).key = key := rfl

variable (key : β → κ) (values : β → List α)

/-- The body of the pass. -/
def tallyItem : List (Tally κ α) → β → List (Tally κ α)
  | [], item => [(Tally.fresh (key item)).add (values item)]
  | row :: rest, item =>
    if row.key = key item then row.add (values item) :: rest
    else row :: tallyItem rest item

/-- The pass over the items. -/
def tally (items : List β) : List (Tally κ α) := items.foldl (tallyItem key values) []

variable {key values}

/-! ## One item -/

theorem tallyItem_keys (rows : List (Tally κ α)) (item : β) :
    (tallyItem key values rows item).map Tally.key =
      setByKey id (rows.map Tally.key) (key item) := by
  induction rows with
  | nil => rfl
  | cons row rest ih =>
      rw [setByKey_eq Function.injective_id] at ih ⊢
      unfold tallyItem
      by_cases h : row.key = key item
      · rw [if_pos h, if_pos (by simp [h])]
        rfl
      · rw [if_neg h, List.map_cons, List.map_cons, ih]
        by_cases hrest : key item ∈ rest.map Tally.key
        · rw [if_pos hrest, if_pos (List.mem_cons_of_mem _ hrest)]
        · rw [if_neg hrest, if_neg fun hmem => (List.mem_cons.mp hmem).elim (h ·.symm) hrest]
          rfl

theorem tallyItem_counts (rows : List (Tally κ α)) (item : β) :
    ((tallyItem key values rows item).map Tally.count).sum = (rows.map Tally.count).sum + 1 := by
  induction rows with
  | nil => rfl
  | cons row rest ih =>
      unfold tallyItem
      split
      · show (row.count + 1) + (rest.map Tally.count).sum = row.count + (rest.map Tally.count).sum + 1
        omega
      · rw [List.map_cons, List.sum_cons, ih, List.map_cons, List.sum_cons, Nat.add_assoc]

/-- Where a row comes from once one item more has been read. -/
theorem mem_tallyItem {rows : List (Tally κ α)} {item : β} (hkeys : (rows.map Tally.key).Nodup)
    {row : Tally κ α} (h : row ∈ tallyItem key values rows item) :
    (row ∈ rows ∧ row.key ≠ key item) ∨
      ∃ before : Tally κ α, before.key = key item ∧ row = before.add (values item) ∧
        (before ∈ rows ∨ key item ∉ rows.map Tally.key ∧ before = Tally.fresh (key item)) := by
  induction rows with
  | nil =>
      exact .inr ⟨_, rfl, List.mem_singleton.mp h, .inr ⟨List.not_mem_nil, rfl⟩⟩
  | cons first rest ih =>
      rw [List.map_cons] at hkeys
      obtain ⟨hfirst, hrest⟩ := List.nodup_cons.mp hkeys
      unfold tallyItem at h
      split at h
      · next heq =>
          rcases List.mem_cons.mp h with rfl | h
          · exact .inr ⟨first, heq, rfl, .inl List.mem_cons_self⟩
          · refine .inl ⟨List.mem_cons_of_mem _ h, fun hkey => hfirst ?_⟩
            exact List.mem_map.mpr ⟨row, h, hkey.trans heq.symm⟩
      · next hne =>
          rcases List.mem_cons.mp h with rfl | h
          · exact .inl ⟨List.mem_cons_self, hne⟩
          · rcases ih hrest h with ⟨hmem, hkey⟩ | ⟨before, hkey, hrow, hmem | ⟨hnew, hfresh⟩⟩
            · exact .inl ⟨List.mem_cons_of_mem _ hmem, hkey⟩
            · exact .inr ⟨before, hkey, hrow, .inl (List.mem_cons_of_mem _ hmem)⟩
            · refine .inr ⟨before, hkey, hrow, .inr ⟨fun hmem => ?_, hfresh⟩⟩
              exact (List.mem_cons.mp hmem).elim (fun heq => hne heq.symm) hnew

/-! ## What a row says of the items -/

variable (key values)

/-- The row holds the union of the values of its key's items, each value once. -/
structure Tally.Of (items : List β) (row : Tally κ α) : Prop where
  distinct : row.values.Nodup
  union : ∀ a, a ∈ row.values ↔ ∃ item ∈ items, key item = row.key ∧ a ∈ values item

variable {key values}

omit [DecidableEq κ] [DecidableEq α] in
/-- A key no item has yet. -/
theorem Tally.Of.fresh {items : List β} {k : κ} (h : ∀ item ∈ items, key item ≠ k) :
    Tally.Of key values items (Tally.fresh k) where
  distinct := List.nodup_nil
  union _ := ⟨fun ha => absurd ha List.not_mem_nil,
    fun ⟨item, hitem, hkey, _⟩ => absurd hkey (h item hitem)⟩

omit [DecidableEq κ] [DecidableEq α] in
/-- An item under another key changes nothing a row says. -/
theorem Tally.Of.other {items : List β} {row : Tally κ α} {item : β}
    (h : row.Of key values items) (hne : row.key ≠ key item) :
    row.Of key values (items ++ [item]) where
  distinct := h.distinct
  union a := by
    rw [h.union]
    constructor
    · rintro ⟨i, hi, hkey, ha⟩
      exact ⟨i, List.mem_append_left _ hi, hkey, ha⟩
    · rintro ⟨i, hi, hkey, ha⟩
      rcases List.mem_append.mp hi with hi | hi
      · exact ⟨i, hi, hkey, ha⟩
      · rw [List.mem_singleton.mp hi] at hkey
        exact absurd hkey.symm hne

omit [DecidableEq κ] in
/-- An item under the row's own key is added. -/
theorem Tally.Of.adding {items : List β} {row : Tally κ α} {item : β}
    (h : row.Of key values items) (heq : row.key = key item) :
    (row.add (values item)).Of key values (items ++ [item]) where
  distinct := nodup_foldl_setByKey Function.injective_id h.distinct
  union a := by
    show a ∈ (values item).foldl (setByKey id) row.values ↔ _
    rw [mem_foldl_setByKey Function.injective_id, h.union]
    constructor
    · rintro (⟨i, hi, hkey, ha⟩ | ha)
      · exact ⟨i, List.mem_append_left _ hi, hkey, ha⟩
      · exact ⟨item, by simp, heq.symm, ha⟩
    · rintro ⟨i, hi, hkey, ha⟩
      rcases List.mem_append.mp hi with hi | hi
      · exact .inl ⟨i, hi, hkey, ha⟩
      · rw [List.mem_singleton.mp hi] at ha
        exact .inr ha

/-! ## The pass -/

variable (key values)

/-- What the map says of the items read. -/
structure Tallied (items : List β) (rows : List (Tally κ α)) : Prop where
  distinct : (rows.map Tally.key).Nodup
  keys : ∀ k, k ∈ rows.map Tally.key ↔ k ∈ items.map key
  each : ∀ row ∈ rows, row.Of key values items
  counted : ∀ row ∈ rows, 0 < row.count
  total : (rows.map Tally.count).sum = items.length

variable {key values}

/-- **One item more.** -/
theorem Tallied.step {items : List β} {rows : List (Tally κ α)} {item : β}
    (h : Tallied key values items rows) :
    Tallied key values (items ++ [item]) (tallyItem key values rows item) where
  distinct := by
    rw [tallyItem_keys]
    exact nodup_setByKey Function.injective_id h.distinct
  keys k := by
    rw [tallyItem_keys, mem_setByKey Function.injective_id, h.keys, List.map_append,
      List.mem_append, List.map_singleton, List.mem_singleton]
  each row hrow := by
    rcases mem_tallyItem h.distinct hrow with ⟨hmem, hne⟩ | ⟨before, heq, rfl, hmem | ⟨hnew, rfl⟩⟩
    · exact (h.each row hmem).other hne
    · exact (h.each before hmem).adding heq
    · refine Tally.Of.adding (Tally.Of.fresh fun i hi hkey => hnew ?_) rfl
      exact (h.keys _).mpr (List.mem_map.mpr ⟨i, hi, hkey⟩)
  counted row hrow := by
    rcases mem_tallyItem h.distinct hrow with ⟨hmem, _⟩ | ⟨before, _, rfl, _⟩
    · exact h.counted row hmem
    · exact Nat.succ_pos _
  total := by
    rw [tallyItem_counts, h.total, List.length_append, List.length_singleton]

/-- **Every pass groups what it has read**, from any point on. -/
theorem Tallied.run {items read : List β} {rows : List (Tally κ α)}
    (h : Tallied key values read rows) :
    Tallied key values (read ++ items) (items.foldl (tallyItem key values) rows) := by
  induction items generalizing read rows with
  | nil => rwa [List.append_nil]
  | cons item rest ih =>
      have hread : read ++ item :: rest = (read ++ [item]) ++ rest := by simp
      rw [hread]
      exact ih h.step

theorem tallied_tally (items : List β) : Tallied key values items (tally key values items) := by
  have hempty : Tallied key values ([] : List β) ([] : List (Tally κ α)) :=
    ⟨List.nodup_nil, fun _ => Iff.rfl, fun _ hrow => absurd hrow List.not_mem_nil,
      fun _ hrow => absurd hrow List.not_mem_nil, rfl⟩
  exact hempty.run

/-- A list without repetition is as long as any list of the same values, repetitions left out. -/
theorem length_dedup_of_mem_iff {xs ys : List α} (hxs : xs.Nodup) (h : ∀ x, x ∈ xs ↔ x ∈ ys) :
    xs.length = ys.dedup.length := by
  refine ((List.perm_ext_iff_of_nodup hxs (List.nodup_dedup ys)).mpr fun x => ?_).length_eq
  rw [h, List.mem_dedup]

/-- As many rows as keys. -/
theorem tally_length (items : List β) :
    (tally key values items).length = (items.map key).dedup.length := by
  have h : Tallied key values items (tally key values items) := tallied_tally items
  rw [← List.length_map Tally.key]
  exact length_dedup_of_mem_iff h.distinct h.keys

/-- As many values in a row as its key's items have. -/
theorem tally_values_length {items : List β} {row : Tally κ α} (h : row ∈ tally key values items) :
    row.values.length =
      ((items.filter fun item => key item = row.key).flatMap values).dedup.length := by
  have hof := (tallied_tally items).each row h
  refine length_dedup_of_mem_iff hof.distinct fun a => ?_
  rw [hof.union, List.mem_flatMap]
  simp only [List.mem_filter, decide_eq_true_eq, and_assoc]

end Tally

end SharedOS.Foundation
