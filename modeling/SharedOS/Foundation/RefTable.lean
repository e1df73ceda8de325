/-
SharedOS.Foundation.RefTable — a table of reference-counted values.

An entry stays in the table while handles are open on it. `Matches` compares a table with a count
of the open handles: each entry holds exactly that many references, and no entry stands where no
handle is open. Each operation keeps it, for the count the operation leaves. Release is the one
that needs care: it must be called for a handle that is still open.
-/
import Mathlib.Data.Nat.Notation
import Mathlib.Order.Defs.LinearOrder

namespace SharedOS.Foundation

/-- A value, and the number of handles open on it. -/
structure Counted (ρ : Type*) where
  refs : Int
  value : ρ

/-- A table from keys to values that are counted. -/
abbrev RefTable (κ ρ : Type*) := κ → Option (Counted ρ)

namespace RefTable

variable {κ ρ : Type*} [DecidableEq κ]

/-- The table with one key's entry replaced. -/
def set (table : RefTable κ ρ) (key : κ) (entry : Option (Counted ρ)) : RefTable κ ρ :=
  fun k => if k = key then entry else table k

/-- Put a value in with no handle on it yet. -/
def install (table : RefTable κ ρ) (key : κ) (value : ρ) : RefTable κ ρ :=
  table.set key (some { refs := 0, value })

/-- One more handle on the entry. -/
def acquire (table : RefTable κ ρ) (key : κ) : RefTable κ ρ :=
  match table key with
  | none => table
  | some entry => table.set key (some { entry with refs := entry.refs + 1 })

/-- One handle fewer, and the entry goes with the last. -/
def release (table : RefTable κ ρ) (key : κ) : RefTable κ ρ :=
  match table key with
  | none => table
  | some entry =>
    if entry.refs - 1 ≤ 0 then table.set key none
    else table.set key (some { entry with refs := entry.refs - 1 })

variable {table : RefTable κ ρ} {key k : κ}

@[simp] theorem set_self (entry : Option (Counted ρ)) : table.set key entry key = entry :=
  if_pos rfl

@[simp] theorem set_other (h : k ≠ key) (entry : Option (Counted ρ)) :
    table.set key entry k = table k := if_neg h

@[simp] theorem set_set (entry entry' : Option (Counted ρ)) :
    (table.set key entry).set key entry' = table.set key entry' := by
  funext k
  by_cases h : k = key
  · rw [h, set_self, set_self]
  · rw [set_other h, set_other h, set_other h]

theorem acquire_of_some {entry : Counted ρ} (h : table key = some entry) :
    table.acquire key = table.set key (some { entry with refs := entry.refs + 1 }) := by
  unfold acquire
  rw [h]

/-! ## The other keys -/

theorem install_other (h : k ≠ key) (value : ρ) : table.install key value k = table k :=
  set_other h _

theorem acquire_other (h : k ≠ key) : table.acquire key k = table k := by
  unfold acquire
  cases table key with
  | none => rfl
  | some entry => exact set_other h _

theorem release_other (h : k ≠ key) : table.release key k = table k := by
  unfold release
  cases table key with
  | none => rfl
  | some entry =>
      dsimp only
      split <;> exact set_other h _

/-! ## The value behind a key -/

/-- What a handle on this key is answered from. -/
def valueAt (table : RefTable κ ρ) (key : κ) : Option ρ := (table key).map Counted.value

theorem valueAt_set (entry : Option (Counted ρ)) :
    (table.set key entry).valueAt k =
      if k = key then entry.map Counted.value else table.valueAt k := by
  unfold valueAt set
  split <;> rfl

theorem valueAt_install (value : ρ) :
    (table.install key value).valueAt k = if k = key then some value else table.valueAt k :=
  valueAt_set _

/-- A handle more changes no value. -/
@[simp] theorem valueAt_acquire : (table.acquire key).valueAt k = table.valueAt k := by
  unfold acquire
  cases h : table key with
  | none => rfl
  | some entry =>
      rw [valueAt_set]
      split
      · next heq => rw [heq, valueAt, h]; rfl
      · rfl

/-- A release drops the value behind its key or leaves it. -/
theorem valueAt_release_some {value : ρ} (h : (table.release key).valueAt k = some value) :
    table.valueAt k = some value := by
  revert h
  unfold release
  cases hkey : table key with
  | none => exact id
  | some entry =>
      dsimp only
      intro h
      by_cases hk : k = key
      · rw [hk, valueAt, hkey]
        split at h <;> rw [valueAt_set, if_pos hk] at h
        · cases h
        · exact h
      · split at h <;> rw [valueAt_set, if_neg hk] at h <;> exact h

/-! ## Counting the handles -/

/-- The table holds an entry exactly where handles are open, counted right. -/
structure Matches (table : RefTable κ ρ) (handles : κ → ℕ) : Prop where
  refs : ∀ key entry, table key = some entry → entry.refs = handles key ∧ 0 < handles key
  absent : ∀ key, table key = none → handles key = 0

/-- The count with one handle more on a key. -/
def more (handles : κ → ℕ) (key : κ) : κ → ℕ :=
  fun k => if k = key then handles k + 1 else handles k

variable {handles : κ → ℕ}

omit [DecidableEq κ] in
theorem Matches.isSome_iff (h : table.Matches handles) : (table key).isSome ↔ 0 < handles key := by
  cases hkey : table key with
  | none =>
      have := h.absent key hkey
      simp [this]
  | some entry =>
      have := (h.refs key entry hkey).2
      simp [this]

/-- Writing one key keeps the rest counted. -/
theorem Matches.set {handles' : κ → ℕ} {entry : Option (Counted ρ)} (h : table.Matches handles)
    (hother : ∀ k, k ≠ key → handles' k = handles k)
    (hsome : ∀ e, entry = some e → e.refs = handles' key ∧ 0 < handles' key)
    (hnone : entry = none → handles' key = 0) : (table.set key entry).Matches handles' := by
  refine ⟨fun k e hk => ?_, fun k hk => ?_⟩ <;> by_cases hsame : k = key
  · rw [hsame, set_self] at hk
    rw [hsame]
    exact hsome e hk
  · rw [set_other hsame] at hk
    rw [hother k hsame]
    exact h.refs k e hk
  · rw [hsame, set_self] at hk
    rw [hsame]
    exact hnone hk
  · rw [set_other hsame] at hk
    rw [hother k hsame]
    exact h.absent k hk

theorem more_self : more handles key key = handles key + 1 := if_pos rfl

theorem more_other (h : k ≠ key) : more handles key k = handles k := if_neg h

theorem Matches.acquire {entry : Counted ρ} (h : table.Matches handles)
    (hkey : table key = some entry) : (table.acquire key).Matches (more handles key) := by
  obtain ⟨hrefs, hpos⟩ := h.refs key entry hkey
  rw [acquire_of_some hkey]
  refine h.set (fun k hk => more_other hk) (fun e he => ?_) (fun he => by cases he)
  cases he
  rw [more_self]
  exact ⟨by push_cast; omega, by omega⟩

/-- Installing where nothing stood, and taking the first handle. -/
theorem Matches.install {value : ρ} (h : table.Matches handles) (hkey : table key = none) :
    ((table.install key value).acquire key).Matches (more handles key) := by
  have hzero := h.absent key hkey
  have hset : (table.install key value).acquire key = table.set key (some ⟨0 + 1, value⟩) := by
    unfold RefTable.install
    rw [acquire_of_some (set_self _)]
    exact set_set _ _
  rw [hset]
  refine h.set (fun k hk => more_other hk) (fun e he => ?_) (fun he => by cases he)
  cases he
  rw [more_self, hzero]
  exact ⟨rfl, Nat.one_pos⟩

/-- Closing a handle that is still open. -/
theorem Matches.release {handles' : κ → ℕ} (h : table.Matches handles)
    (hcount : handles = more handles' key) : (table.release key).Matches handles' := by
  subst hcount
  have hother : ∀ k, k ≠ key → handles' k = more handles' key k := fun k hk => (more_other hk).symm
  cases hkey : table key with
  | none =>
      have := h.absent key hkey
      rw [more_self] at this
      omega
  | some entry =>
      obtain ⟨hrefs, _⟩ := h.refs key entry hkey
      rw [more_self] at hrefs
      push_cast at hrefs
      unfold RefTable.release
      rw [hkey]
      dsimp only
      split
      -- the last handle takes the entry with it
      · exact h.set hother (fun e he => by cases he) fun _ => by omega
      · refine h.set hother (fun e he => ?_) (fun he => by cases he)
        cases he
        dsimp only
        exact ⟨by omega, by omega⟩

end RefTable

end SharedOS.Foundation
