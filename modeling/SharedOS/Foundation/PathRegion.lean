/-
SharedOS.Foundation.PathRegion — regions of a tree of paths: one node, or a whole subtree.

A path is a list of segments and a path lies beneath another when it extends it. The two regions
an access rule can name are a node and a subtree. Inclusion of regions is decided on their roots
(`node_subset_subtree`, `subtree_subset_subtree`, `not_subtree_subset_node`), and a region meets a
subtree when one root extends the other (`meets_subtree_iff`).
-/
import Mathlib.Data.Set.Insert

namespace SharedOS.Foundation

/-- A region of the tree of paths over `α`. -/
inductive PathRegion (α : Type*) where
  /-- One path. -/
  | node (root : List α)
  /-- A path and everything beneath it. -/
  | subtree (root : List α)

namespace PathRegion

variable {α : Type*}

/-- The path a region is named by. -/
def root : PathRegion α → List α
  | .node p => p
  | .subtree p => p

/-- The paths of a region. -/
def paths : PathRegion α → Set (List α)
  | .node p => {p}
  | .subtree p => {q | p <+: q}

@[simp] theorem mem_node {p q : List α} : q ∈ (node p).paths ↔ p = q := by
  show q = p ↔ p = q
  exact eq_comm

@[simp] theorem mem_subtree {p q : List α} : q ∈ (subtree p).paths ↔ p <+: q := Iff.rfl

theorem root_mem (r : PathRegion α) : r.root ∈ r.paths := by
  cases r with
  | node p => exact mem_node.mpr rfl
  | subtree p => exact List.prefix_refl p

theorem root_prefixes {r : PathRegion α} {q : List α} (h : q ∈ r.paths) : r.root <+: q := by
  cases r with
  | node p => rw [← mem_node.mp h]; exact List.prefix_refl p
  | subtree p => exact h

/-! ## Inclusion -/

theorem node_subset {p : List α} {r : PathRegion α} : (node p).paths ⊆ r.paths ↔ p ∈ r.paths :=
  Set.singleton_subset_iff

theorem subset_subtree {r : PathRegion α} {q : List α} :
    r.paths ⊆ (subtree q).paths ↔ q <+: r.root := by
  constructor
  · exact fun h => h r.root_mem
  · exact fun h p hp => h.trans (root_prefixes hp)

/-- A subtree is never inside a node: it holds a path that is one segment longer. -/
theorem not_subtree_subset_node [Nonempty α] {p q : List α} :
    ¬ (subtree p).paths ⊆ (node q).paths := by
  intro h
  obtain ⟨a⟩ := ‹Nonempty α›
  have hroot := mem_node.mp (h (List.prefix_refl p))
  have hchild := mem_node.mp (h (List.prefix_append p [a]))
  have hlen := congrArg List.length (hroot.symm.trans hchild)
  rw [List.length_append] at hlen
  simp at hlen

/-! ## Intersection with a subtree -/

/-- The region has a path beneath `q`. -/
def Meets (r : PathRegion α) (q : List α) : Prop := ∃ p ∈ r.paths, q <+: p

theorem node_meets {p q : List α} : (node p).Meets q ↔ q <+: p := by
  constructor
  · rintro ⟨p', hp, hq⟩
    rwa [mem_node.mp hp]
  · exact fun h => ⟨p, mem_node.mpr rfl, h⟩

theorem subtree_meets {p q : List α} : (subtree p).Meets q ↔ p <+: q ∨ q <+: p := by
  constructor
  · rintro ⟨r, hp, hq⟩
    exact List.prefix_or_prefix_of_prefix hp hq
  · rintro (h | h)
    · exact ⟨q, h, List.prefix_refl q⟩
    · exact ⟨p, List.prefix_refl p, h⟩

end PathRegion

end SharedOS.Foundation
