/-
SharedOS.Foundation.Race — a wait for another's work that a signal may end.

The work settles at most once, whether or not anybody still waits for it. The wait ends at most once:
with what the work came to, when the reaction to it runs before the signal, or abandoned. A wait that
ended with a result names the result the work came to, and an abandoned one says nothing of it.
-/
import Mathlib.Order.Basic

namespace SharedOS.Foundation

/-- What a wait ended with. -/
inductive Waited (α : Type) where
  | settled (result : Except Unit α)
  | abandoned

/-- The work, and the wait for it. -/
structure Race (α : Type) where
  work : Option (Except Unit α)
  waited : Option (Waited α)
  faithful : ∀ result, waited = some (.settled result) → work = some result

namespace Race

variable {α : Type}

/-- The wait starts, unless the signal fired before. -/
def start (fired : Bool) : Race α where
  work := none
  waited := if fired then some .abandoned else none
  faithful result h := by
    split at h
    · cases Option.some.inj h
    · cases h

/-- What threw before there was anything to wait for. -/
def threw : Race α where
  work := some (.error ())
  waited := some (.settled (.error ()))
  faithful result h := by
    rw [Waited.settled.inj (Option.some.inj h)]

/-- The work comes to something, once. -/
def settle (r : Race α) (result : Except Unit α) : Option (Race α) :=
  if h : r.work = none then
    some
      { work := some result
        waited := r.waited
        faithful := fun other hother => by
          have := r.faithful other hother
          rw [h] at this
          cases this }
  else none

/-- The reaction to the work: the wait ends with its result. -/
def react (r : Race α) : Option (Race α) :=
  match h : r.waited, r.work with
  | none, some result =>
    some
      { work := some result
        waited := some (.settled result)
        faithful := fun other hother => by
          rw [Waited.settled.inj (Option.some.inj hother)] }
  | _, _ => none

/-- The signal fires: a wait that is still on is abandoned. -/
def abandon (r : Race α) : Race α :=
  if h : r.waited = none then
    { work := r.work
      waited := some .abandoned
      faithful := fun _ h => by cases Option.some.inj h }
  else r

/-! ## What each of them leaves -/

theorem settle_eq_some {r r' : Race α} {result : Except Unit α} :
    r.settle result = some r' ↔ r.work = none ∧ r'.work = some result ∧ r'.waited = r.waited := by
  unfold settle
  split
  · next h =>
      constructor
      · intro heq
        obtain rfl := Option.some.inj heq
        exact ⟨h, rfl, rfl⟩
      · rintro ⟨-, hwork, hwaited⟩
        obtain ⟨work, waited, faithful⟩ := r'
        subst hwork hwaited
        rfl
  · next h => exact ⟨nofun, fun heq => absurd heq.1 h⟩

theorem react_eq_some {r r' : Race α} :
    r.react = some r' ↔ r.waited = none ∧ ∃ result, r.work = some result ∧
      r'.work = some result ∧ r'.waited = some (.settled result) := by
  unfold react
  split
  · next result hwaited hwork =>
      constructor
      · intro heq
        obtain rfl := Option.some.inj heq
        exact ⟨hwaited, result, hwork, rfl, rfl⟩
      · rintro ⟨-, other, hother, hwork', hwaited'⟩
        obtain ⟨work, waited, faithful⟩ := r'
        have hresult : other = result := Option.some.inj (hother.symm.trans hwork)
        subst hwork' hwaited' hresult
        rfl
  · next hnot =>
      refine ⟨nofun, ?_⟩
      rintro ⟨hwaited, result, hwork, -⟩
      exact absurd hwork (hnot result hwaited)

@[simp] theorem abandon_work (r : Race α) : r.abandon.work = r.work := by
  unfold abandon
  split <;> rfl

theorem abandon_waited (r : Race α) :
    r.abandon.waited = some (r.waited.getD .abandoned) := by
  unfold abandon
  split
  · next h =>
      rw [h]
      rfl
  · next h =>
      obtain ⟨waited, hwaited⟩ := Option.ne_none_iff_exists'.mp h
      rw [hwaited]
      rfl

end Race

end SharedOS.Foundation
