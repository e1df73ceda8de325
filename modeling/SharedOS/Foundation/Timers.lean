/-
SharedOS.Foundation.Timers — timers over a clock that only moves as far as the next of them.

A timer fires at the instant it is due: the clock does not pass a pending timer, and what is due at
one instant may fire in any order. So a pending timer that is due by an instant bounds the clock by
that instant (`PendingBy.now_le`), and the rules below say how long it stays pending.
-/
import Mathlib.Algebra.Order.Group.Defs
import Mathlib.Data.List.Nodup

namespace SharedOS.Foundation

/-- A pending timer: its handle, when it is due, and what it does. -/
structure Timer (T α : Type*) where
  handle : ℕ
  due : T
  action : α

/-- The pending timers at an instant. No two share a handle, and none is overdue. -/
structure Timers (T α : Type*) [LinearOrder T] where
  now : T
  next : ℕ
  pending : List (Timer T α)
  fresh : ∀ timer ∈ pending, timer.handle < next
  distinct : (pending.map Timer.handle).Nodup
  punctual : ∀ timer ∈ pending, now ≤ timer.due

namespace Timers

section Operations

variable {T α : Type*} [AddCommGroup T] [LinearOrder T] [IsOrderedAddMonoid T]

/-- The clock before anything is armed. -/
def start : Timers T α where
  now := 0
  next := 0
  pending := []
  fresh := nofun
  distinct := List.nodup_nil
  punctual := nofun

/-- `setTimeout`: a handle, and the timer pending under it. A negative delay counts as none. -/
def setTimeout (t : Timers T α) (delay : T) (action : α) : ℕ × Timers T α :=
  (t.next,
    { now := t.now
      next := t.next + 1
      pending := t.pending ++ [{ handle := t.next, due := t.now + max 0 delay, action }]
      fresh := by
        intro timer htimer
        rcases List.mem_append.mp htimer with hold | hnew
        · exact Nat.lt_succ_of_lt (t.fresh timer hold)
        · rw [List.mem_singleton.mp hnew]
          exact Nat.lt_succ_self _
      distinct := by
        rw [List.map_append, List.map_singleton]
        refine List.nodup_append.mpr ⟨t.distinct, List.nodup_singleton _, ?_⟩
        intro handle hold other hnew heq
        obtain ⟨timer, htimer, rfl⟩ := List.mem_map.mp hold
        have hlt := t.fresh timer htimer
        rw [heq, List.mem_singleton.mp hnew] at hlt
        exact absurd hlt (lt_irrefl _)
      punctual := by
        intro timer htimer
        rcases List.mem_append.mp htimer with hold | hnew
        · exact t.punctual timer hold
        · rw [List.mem_singleton.mp hnew]
          exact le_add_of_nonneg_right (le_max_left _ _) })

end Operations

variable {T α : Type*} [LinearOrder T]

/-- `clearTimeout`. Clearing what is not pending does nothing. -/
def clearTimeout (t : Timers T α) (handle : Option ℕ) : Timers T α where
  now := t.now
  next := t.next
  pending := t.pending.filter fun timer => some timer.handle ≠ handle
  fresh timer htimer := t.fresh timer (List.mem_of_mem_filter htimer)
  distinct := (t.distinct.sublist (List.filter_sublist.map _))
  punctual timer htimer := t.punctual timer (List.mem_of_mem_filter htimer)

/-- The clock moves on, as far as the next timer. -/
def elapse (t : Timers T α) (instant : T) : Option (Timers T α) :=
  if h : t.now ≤ instant ∧ ∀ timer ∈ t.pending, instant ≤ timer.due then
    some { t with now := instant, punctual := h.2 }
  else none

/-- A timer that is due fires, once. -/
def fire (t : Timers T α) (handle : ℕ) : Option (α × Timers T α) :=
  (t.pending.find? fun timer => timer.handle = handle ∧ timer.due = t.now).map fun timer =>
    (timer.action, t.clearTimeout (some handle))

/-! ## What stays pending -/

/-- A timer of this kind is pending, due by this instant. -/
def PendingBy (P : α → Prop) (limit : T) (t : Timers T α) : Prop :=
  ∃ timer ∈ t.pending, P timer.action ∧ timer.due ≤ limit

variable {P : α → Prop} {limit : T} {t t' : Timers T α}

/-- **The clock has not passed the instant.** -/
theorem PendingBy.now_le (h : PendingBy P limit t) : t.now ≤ limit := by
  obtain ⟨timer, htimer, -, hdue⟩ := h
  exact (t.punctual timer htimer).trans hdue

theorem PendingBy.weaken {later : T} (h : PendingBy P limit t) (hle : limit ≤ later) :
    PendingBy P later t := by
  obtain ⟨timer, htimer, hkind, hdue⟩ := h
  exact ⟨timer, htimer, hkind, hdue.trans hle⟩

theorem elapse_eq {instant : T} (h : t.elapse instant = some t') :
    t'.now = instant ∧ t.now ≤ instant ∧ t'.pending = t.pending := by
  unfold elapse at h
  split at h
  · next hpast =>
      obtain rfl := Option.some.inj h
      exact ⟨rfl, hpast.1, rfl⟩
  · cases h

theorem PendingBy.elapse {instant : T} (h : PendingBy P limit t) (helapse : t.elapse instant = some t') :
    PendingBy P limit t' := by
  unfold PendingBy
  rw [(elapse_eq helapse).2.2]
  exact h

/-- What fires was pending and due now, and nothing else goes. -/
theorem fire_eq {handle : ℕ} {action : α} (h : t.fire handle = some (action, t')) :
    ∃ timer ∈ t.pending, timer.handle = handle ∧ timer.due = t.now ∧ timer.action = action ∧
      t' = t.clearTimeout (some handle) := by
  obtain ⟨timer, hfind, heq⟩ := Option.map_eq_some_iff.mp h
  obtain ⟨haction, ht'⟩ := Prod.mk.inj heq
  have hfound : timer.handle = handle ∧ timer.due = t.now := by
    simpa using List.find?_some hfind
  exact ⟨timer, List.mem_of_find?_eq_some hfind, hfound.1, hfound.2, haction, ht'.symm⟩

/-- **The timer fires or stays pending.** -/
theorem PendingBy.fire {handle : ℕ} {action : α} (h : PendingBy P limit t)
    (hfire : t.fire handle = some (action, t')) : P action ∨ PendingBy P limit t' := by
  obtain ⟨fired, hfired, rfl, -, rfl, rfl⟩ := fire_eq hfire
  obtain ⟨timer, htimer, hkind, hdue⟩ := h
  by_cases hsame : timer.handle = fired.handle
  · left
    rwa [← List.inj_on_of_nodup_map t.distinct htimer hfired hsame]
  · right
    refine ⟨timer, List.mem_filter.mpr ⟨htimer, decide_eq_true ?_⟩, hkind, hdue⟩
    exact fun heq => hsame (Option.some.inj heq)

theorem mem_clearTimeout {handle : Option ℕ} {timer : Timer T α} :
    timer ∈ (t.clearTimeout handle).pending ↔ timer ∈ t.pending ∧ some timer.handle ≠ handle := by
  unfold clearTimeout
  rw [List.mem_filter, decide_eq_true_eq]

section Arming

variable {T α : Type*} [AddCommGroup T] [LinearOrder T] [IsOrderedAddMonoid T] {P : α → Prop}
  {limit : T} {t : Timers T α} {delay : T} {action : α}

theorem mem_setTimeout {timer : Timer T α} :
    timer ∈ (t.setTimeout delay action).2.pending ↔
      timer ∈ t.pending ∨ timer = { handle := t.next, due := t.now + max 0 delay, action } := by
  show timer ∈ t.pending ++ [_] ↔ _
  rw [List.mem_append, List.mem_singleton]

theorem PendingBy.setTimeout (h : PendingBy P limit t) :
    PendingBy P limit (t.setTimeout delay action).2 := by
  obtain ⟨timer, htimer, hkind, hdue⟩ := h
  exact ⟨timer, mem_setTimeout.mpr (.inl htimer), hkind, hdue⟩

/-- **An armed timer is pending.** -/
theorem pendingBy_armed (h : P action) :
    PendingBy P (t.now + max 0 delay) (t.setTimeout delay action).2 :=
  ⟨_, mem_setTimeout.mpr (.inr rfl), h, le_rfl⟩

end Arming

end Timers

end SharedOS.Foundation
