/-
SharedOS.Runtime.TurnDeadlines — the two signals of a turn that drains before it stops.

`draining` says that the turn takes nothing new, `aborted` that it stops. A turn that is stopped is
draining, and that is a field of the signals: no operation can build the other state. When each
timer goes off is the environment's choice, within what is armed. The timers themselves are in
`DeadlineTimers`, and these signals answer whatever they do (`DeadlineRefinement`).
-/
import SharedOS.Kernel.Ports

namespace SharedOS.Runtime

open SharedOS.Foundation SharedOS.Contracts SharedOS.Kernel

/-- An error, as the envelope tells errors apart. -/
inductive Thrown where
  | auditUnavailable (effect : AuditEffect)
  | other
  deriving DecidableEq

/-- The signals of `createTurnDeadlines`. The reason of the hard signal is what it was aborted with first. -/
structure TurnDeadlines where
  graceMs : ℕ
  aborted : Option Thrown
  draining : Bool
  stopAfterGrace : Option Thrown
  disposed : Bool
  drained : aborted.isSome → draining = true

namespace TurnDeadlines

/-- Neither signal has fired. -/
def create (graceMs : ℕ) : TurnDeadlines where
  graceMs := graceMs
  aborted := none
  draining := false
  stopAfterGrace := none
  disposed := false
  drained := nofun

/-- `abort`, and the soft signal with it. Aborting again changes nothing. -/
def abort (d : TurnDeadlines) (reason : Thrown) : TurnDeadlines :=
  { d with
    aborted := d.aborted.or (some reason)
    draining := true
    drained := fun _ => rfl }

/-- The soft signal alone, `graceMs` ahead of the deadline. -/
def startDraining (d : TurnDeadlines) : TurnDeadlines :=
  { d with draining := true, drained := fun _ => rfl }

/-- `drain`: take nothing new at once, and stop after the grace. -/
def drain (d : TurnDeadlines) (reason : Thrown) : TurnDeadlines :=
  if d.graceMs = 0 then d.abort reason
  else if d.aborted.isNone ∧ !d.disposed then
    { d.startDraining with stopAfterGrace := d.stopAfterGrace.or (some reason) }
  else d.startDraining

/-- The turn is over: the hard signal fires for whatever is left, and no timer will. -/
def close (d : TurnDeadlines) : TurnDeadlines :=
  { d.abort .other with stopAfterGrace := none, disposed := true }

@[simp] theorem abort_isSome (d : TurnDeadlines) (reason : Thrown) :
    (d.abort reason).aborted.isSome = true := by
  unfold abort
  cases d.aborted <;> rfl

@[simp] theorem close_isSome (d : TurnDeadlines) : d.close.aborted.isSome = true :=
  d.abort_isSome .other

theorem abort_keeps {d : TurnDeadlines} {reason : Thrown} (h : d.aborted.isSome) :
    (d.abort reason).aborted = d.aborted := by
  obtain ⟨first, hfirst⟩ := Option.isSome_iff_exists.mp h
  unfold abort
  rw [hfirst]
  rfl

/-- A turn that has stopped is aborted once. -/
theorem abort_eq_self {d : TurnDeadlines} {reason : Thrown} (h : d.aborted.isSome) :
    d.abort reason = d := by
  obtain ⟨_, aborted, draining, _, _, drained⟩ := d
  obtain rfl : draining = true := drained h
  obtain ⟨first, rfl⟩ := Option.isSome_iff_exists.mp h
  rfl

/-- A stopped turn stays stopped, for the reason it was stopped for. -/
theorem drain_keeps {d : TurnDeadlines} {reason : Thrown} (h : d.aborted.isSome) :
    (d.drain reason).aborted = d.aborted := by
  unfold drain
  split
  · exact abort_keeps h
  split
  · rfl
  · rfl

end TurnDeadlines

end SharedOS.Runtime
