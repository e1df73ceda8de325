/-
SharedOS.Foundation.StableSort — when a stable sort forgets the order it was given.

The comparison is a total preorder, so distinct items can tie. A stable sort leaves tied items in
the order they came in. Two listings of the same items therefore sort to one list exactly when no
tied pair stands one way round in the first and the other way round in the second
(`insertionSort_eq_iff`).
-/
import Mathlib.Data.List.Sort

namespace SharedOS.Foundation

/-- A comparison whose sign is a total preorder, as a consistent comparator's is. -/
structure ConsistentComparison {α : Type*} (cmp : α → α → Int) : Prop where
  swap : ∀ a b, cmp a b ≤ 0 ↔ 0 ≤ cmp b a
  trans : ∀ a b c, cmp a b ≤ 0 → cmp b c ≤ 0 → cmp a c ≤ 0

namespace ConsistentComparison

variable {α : Type*} {cmp : α → α → Int}

theorem total (h : ConsistentComparison cmp) (a b : α) : cmp a b ≤ 0 ∨ cmp b a ≤ 0 := by
  rcases le_total (cmp a b) 0 with hab | hab
  · exact .inl hab
  · exact .inr ((h.swap b a).mpr hab)

/-- A tie is a comparison that answers zero. -/
theorem tie_iff (h : ConsistentComparison cmp) {a b : α} :
    cmp a b = 0 ↔ cmp a b ≤ 0 ∧ cmp b a ≤ 0 := by
  rw [h.swap b a]
  omega

/-- Comparing by a key is as consistent as comparing keys. -/
theorem comap {β : Type*} (h : ConsistentComparison cmp) (f : β → α) :
    ConsistentComparison fun a b => cmp (f a) (f b) :=
  ⟨fun a b => h.swap (f a) (f b), fun a b c => h.trans (f a) (f b) (f c)⟩

end ConsistentComparison

/-- A comparator that answers the sign of a linear order is consistent. -/
theorem consistentComparison_of_linearOrder {α : Type*} [LinearOrder α] {cmp : α → α → Int}
    (hless : ∀ a b, cmp a b < 0 ↔ a < b) (hmore : ∀ a b, 0 < cmp a b ↔ b < a) :
    ConsistentComparison cmp := by
  have hle : ∀ a b, cmp a b ≤ 0 ↔ a ≤ b := by
    intro a b
    rw [← not_lt, hmore, not_lt]
  refine ⟨?_, ?_⟩
  · intro a b
    rw [hle, ← not_lt, ← not_lt, hless]
  · intro a b c
    rw [hle, hle, hle]
    exact le_trans

variable {α : Type*}

/-- `a` stands before `b`. -/
def Before (l : List α) (a b : α) : Prop := [a, b].Sublist l

/-- Two distinct items that tie stand one way round in `l` and the other way round in `l'`. -/
def SwappedTie (cmp : α → α → Int) (l l' : List α) : Prop :=
  ∃ a b, a ≠ b ∧ cmp a b = 0 ∧ Before l a b ∧ Before l' b a

theorem Before.mem {l : List α} {a b : α} (h : Before l a b) : a ∈ l ∧ b ∈ l :=
  ⟨h.subset (by simp), h.subset (by simp)⟩

/-- Without repetitions, nothing stands both before and after another item. -/
theorem Before.asymm {l : List α} {a b : α} (hnodup : l.Nodup) (h : Before l a b) :
    ¬ Before l b a := by
  induction l with
  | nil => exact absurd h.mem.1 List.not_mem_nil
  | cons c rest ih =>
      intro h'
      obtain ⟨hfresh, hrest⟩ := List.nodup_cons.mp hnodup
      rcases List.sublist_cons_iff.mp h with hin | ⟨tail, htail, hsub⟩
      · rcases List.sublist_cons_iff.mp h' with hin' | ⟨tail', htail', hsub'⟩
        · exact ih hrest hin hin'
        · -- `b` is the head, and it occurs again after `a`
          rw [(List.cons.inj htail').1] at hin
          exact hfresh (Before.mem hin).2
      · obtain ⟨rfl, rfl⟩ := List.cons.inj htail
        rcases List.sublist_cons_iff.mp h' with hin' | ⟨tail', htail', hsub'⟩
        · exact hfresh (Before.mem hin').2
        · obtain ⟨rfl, rfl⟩ := List.cons.inj htail'
          exact hfresh (hsub.subset (List.mem_singleton_self _))

/-- Of two distinct items one stands before the other. -/
theorem before_or_before {l : List α} {a b : α} (ha : a ∈ l) (hb : b ∈ l) (hne : a ≠ b) :
    Before l a b ∨ Before l b a := by
  induction l with
  | nil => exact absurd ha List.not_mem_nil
  | cons c rest ih =>
      rcases List.mem_cons.mp ha with rfl | hain
      · rcases List.mem_cons.mp hb with rfl | hbin
        · exact absurd rfl hne
        · exact .inl (.cons_cons _ (List.singleton_sublist.mpr hbin))
      · rcases List.mem_cons.mp hb with rfl | hbin
        · exact .inr (.cons_cons _ (List.singleton_sublist.mpr hain))
        · exact (ih hain hbin).imp (.cons _) (.cons _)

section Sorting

variable {cmp : α → α → Int}

/-- The sort puts a tied pair in the order it came in. -/
theorem Before.insertionSort {l : List α} {a b : α} (htie : cmp a b ≤ 0) (h : Before l a b) :
    Before (l.insertionSort fun a b => cmp a b ≤ 0) a b :=
  List.pair_sublist_insertionSort htie h

/-- What a sorted pair was: in order strictly, or tied and in that order before. -/
theorem before_of_insertionSort (hcmp : ConsistentComparison cmp) {l : List α} (hnodup : l.Nodup)
    {a b : α} (h : Before (l.insertionSort fun a b => cmp a b ≤ 0) a b) :
    cmp a b ≤ 0 ∧ (cmp a b = 0 → Before l a b) := by
  have : Std.Total fun a b : α => cmp a b ≤ 0 := ⟨hcmp.total⟩
  have : IsTrans α fun a b : α => cmp a b ≤ 0 := ⟨hcmp.trans⟩
  have hperm := List.perm_insertionSort (fun a b : α => cmp a b ≤ 0) l
  have hle : cmp a b ≤ 0 := List.pairwise_iff_forall_sublist.mp
    (List.pairwise_insertionSort (fun a b : α => cmp a b ≤ 0) l) h
  refine ⟨hle, ?_⟩
  intro htie
  have hsorted := hperm.nodup_iff.mpr hnodup
  have hne : a ≠ b := by
    rintro rfl
    exact Before.asymm hsorted h h
  rcases before_or_before (hperm.mem_iff.mp h.mem.1) (hperm.mem_iff.mp h.mem.2) hne with hin | hin
  · exact hin
  · -- the sort would have kept the pair the other way round
    exact absurd (hin.insertionSort (hcmp.tie_iff.mp htie).2) (h.asymm hsorted)

/-- **When a stable sort forgets the order it was given**: exactly when no tied pair is swapped. -/
theorem insertionSort_eq_iff (hcmp : ConsistentComparison cmp) {l l' : List α} (hperm : l.Perm l')
    (hnodup : l.Nodup) :
    l.insertionSort (fun a b => cmp a b ≤ 0) = l'.insertionSort (fun a b => cmp a b ≤ 0) ↔
      ¬ SwappedTie cmp l l' := by
  have hnodup' := hperm.nodup_iff.mp hnodup
  have hsorted := (List.perm_insertionSort (fun a b : α => cmp a b ≤ 0) l).nodup_iff.mpr hnodup
  constructor
  · rintro heq ⟨a, b, -, htie, hl, hl'⟩
    have hbefore := hl.insertionSort (hcmp.tie_iff.mp htie).1
    have hafter := hl'.insertionSort (hcmp.tie_iff.mp htie).2
    rw [← heq] at hafter
    exact hbefore.asymm hsorted hafter
  · intro hnone
    have hsame : (l.insertionSort fun a b => cmp a b ≤ 0).Perm
        (l'.insertionSort fun a b => cmp a b ≤ 0) :=
      (List.perm_insertionSort _ l).trans (hperm.trans (List.perm_insertionSort _ l').symm)
    -- both are sorted by one antisymmetric relation: the comparison, and on ties the first listing
    have hfirst : (l.insertionSort fun a b => cmp a b ≤ 0).Pairwise
        fun a b => cmp a b ≤ 0 ∧ (cmp a b = 0 → Before l a b) :=
      List.pairwise_iff_forall_sublist.mpr fun h => before_of_insertionSort hcmp hnodup h
    have hsecond : (l'.insertionSort fun a b => cmp a b ≤ 0).Pairwise
        fun a b => cmp a b ≤ 0 ∧ (cmp a b = 0 → Before l a b) := by
      refine List.pairwise_iff_forall_sublist.mpr fun {a b} h => ?_
      obtain ⟨hle, htied⟩ := before_of_insertionSort hcmp hnodup' h
      refine ⟨hle, ?_⟩
      intro htie
      have hin' := htied htie
      have hne : a ≠ b := by
        rintro rfl
        exact hin'.asymm hnodup' hin'
      rcases before_or_before (hperm.mem_iff.mpr hin'.mem.1) (hperm.mem_iff.mpr hin'.mem.2) hne
        with hin | hin
      · exact hin
      · have hback : cmp b a = 0 := hcmp.tie_iff.mpr (hcmp.tie_iff.mp htie).symm
        exact absurd ⟨b, a, hne.symm, hback, hin, hin'⟩ hnone
    refine List.Perm.eq_of_pairwise ?_ hfirst hsecond hsame
    rintro a b - - ⟨hab, hin⟩ ⟨hba, hin'⟩
    by_contra hne
    have htie : cmp a b = 0 := hcmp.tie_iff.mpr ⟨hab, hba⟩
    exact (hin htie).asymm hnodup (hin' (hcmp.tie_iff.mpr ⟨hba, hab⟩))

end Sorting

end SharedOS.Foundation
