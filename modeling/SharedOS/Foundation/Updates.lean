/-
SharedOS.Foundation.Updates — a list of parties, one of which moves.

Machines keep their parties in a list and replace one at a time. What a replacement does to the
images, the counts and the partial images of the list is said here once.
-/
import Mathlib.Data.List.Basic
import Mathlib.Data.List.Perm.Subperm

namespace SharedOS.Foundation

variable {α β : Type*} {xs : List α} {a b : α} {i j : ℕ}

/-! ## The same image -/

/-- A list whose item is replaced by one with the same image has the same images. -/
theorem map_set_same {f : α → β} (hi : xs[i]? = some a) (hf : f b = f a) :
    (xs.set i b).map f = xs.map f := by
  rw [List.map_set, hf]
  refine List.ext_getElem? fun j => ?_
  by_cases hj : j = i
  · subst hj
    have hlength : j < xs.length := (List.getElem?_eq_some_iff.mp hi).1
    rw [List.getElem?_set_self (by simpa using hlength), List.getElem?_map, hi]
    rfl
  · rw [List.getElem?_set_ne (Ne.symm hj)]

theorem countP_set_same {p : α → Bool} (hi : xs[i]? = some a) (hp : p b = p a) :
    (xs.set i b).countP p = xs.countP p := by
  have hmap : (xs.set i b).map p = xs.map p := map_set_same hi hp
  rw [← Function.id_comp p, ← List.countP_map, hmap, List.countP_map]

theorem filterMap_set_same {f : α → Option β} (hi : xs[i]? = some a) (hf : f b = f a) :
    (xs.set i b).filterMap f = xs.filterMap f := by
  have hmap : (xs.set i b).map f = xs.map f := map_set_same hi hf
  rw [← Function.id_comp f, ← List.filterMap_map, hmap, List.filterMap_map]

/-! ## Partial images -/

/-- A list of some of the images is a sublist of the images. -/
theorem filterMap_sublist_map {f : α → Option β} {g : α → β}
    (h : ∀ a b, f a = some b → b = g a) : (xs.filterMap f).Sublist (xs.map g) := by
  induction xs with
  | nil => exact List.Sublist.refl _
  | cons a xs ih =>
      rw [List.filterMap_cons, List.map_cons]
      cases hfa : f a with
      | none => exact ih.cons _
      | some b =>
          rw [h a b hfa]
          exact ih.cons_cons _

/-- An item that comes to have an image adds that one image. -/
theorem filterMap_set_perm {f : α → Option β} {c : β} (hi : xs[i]? = some a) (ha : f a = none)
    (hb : f b = some c) : ((xs.set i b).filterMap f).Perm (xs.filterMap f ++ [c]) := by
  induction xs generalizing i with
  | nil => simp at hi
  | cons x xs ih =>
      cases i with
      | zero =>
          obtain rfl : x = a := by simpa using hi
          rw [List.set_cons_zero, List.filterMap_cons_some hb, List.filterMap_cons_none ha]
          exact (List.perm_append_singleton c _).symm
      | succ j =>
          have hj : xs[j]? = some a := by simpa using hi
          rw [List.set_cons_succ, List.filterMap_cons, List.filterMap_cons]
          cases f x with
          | none => exact ih hj
          | some y => exact (ih hj).cons y

/-- Where no image is had twice, an image tells its item. -/
theorem eq_of_filterMap_nodup {f : α → Option β} {c : β} (h : (xs.filterMap f).Nodup)
    (hi : xs[i]? = some a) (hj : xs[j]? = some b) (ha : f a = some c) (hb : f b = some c) :
    i = j := by
  obtain ⟨hilt, rfl⟩ := List.getElem?_eq_some_iff.mp hi
  obtain ⟨hjlt, rfl⟩ := List.getElem?_eq_some_iff.mp hj
  rw [List.Nodup, List.pairwise_filterMap, List.pairwise_iff_getElem] at h
  rcases Nat.lt_trichotomy i j with hlt | heq | hlt
  · exact absurd rfl (h i j hilt hjlt hlt c ha c hb)
  · exact heq
  · exact absurd rfl (h j i hjlt hilt hlt c hb c ha)

/-! ## What holds of every party -/

/-- An item of the list after a replacement is the new one, or was there before. -/
theorem getElem?_set_cases {x : α} (h : (xs.set i b)[j]? = some x) :
    (j = i ∧ x = b) ∨ (j ≠ i ∧ xs[j]? = some x) := by
  by_cases hj : i = j
  · subst hj
    have hlength : i < xs.length := by
      have := (List.getElem?_eq_some_iff.mp h).1
      rwa [List.length_set] at this
    rw [List.getElem?_set_self hlength] at h
    exact .inl ⟨rfl, (Option.some.inj h).symm⟩
  · rw [List.getElem?_set_ne hj] at h
    exact .inr ⟨Ne.symm hj, h⟩

/-- An item of the list with one more is that one, or was there before. -/
theorem getElem?_append_singleton {x : α} (h : (xs ++ [a])[j]? = some x) :
    xs[j]? = some x ∨ j = xs.length ∧ x = a := by
  by_cases hj : j < xs.length
  · rw [List.getElem?_append_left hj] at h
    exact .inl h
  · obtain ⟨hlt, -⟩ := List.getElem?_eq_some_iff.mp h
    have hlast : j = xs.length := by
      rw [List.length_append, List.length_singleton] at hlt
      omega
    subst hlast
    rw [List.getElem?_concat_length] at h
    exact .inr ⟨rfl, (Option.some.inj h).symm⟩

end SharedOS.Foundation
