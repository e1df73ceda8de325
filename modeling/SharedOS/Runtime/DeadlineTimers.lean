/-
SharedOS.Runtime.DeadlineTimers — the two signals of a turn, with the timers that fire them.

The machine has the objects of `createTurnDeadlines`: two controllers, a listener on the parent and
one between the controllers, and up to three timers. What may happen next is a label: time passes, a
timer that is due fires, the parent aborts, the envelope drains, aborts or disposes. A signal fires in
time because a timer that fires it stays pending until it has (`StopsBy`, `DrainsBy`).
-/
import Mathlib.Algebra.Order.Ring.Rat
import SharedOS.Foundation.Run
import SharedOS.Foundation.Timers

namespace SharedOS.Runtime

open SharedOS.Foundation

/-! ## The machine -/

/-- What a controller was aborted with. -/
inductive AbortReason (ρ : Type) where
  | given (reason : ρ)
  /-- `new Error("turn timeout")` -/
  | turnTimeout
  /-- `new Error("turn draining")` -/
  | turnDraining

/-- What a timer does when it fires. -/
inductive TimerAction (ρ : Type) where
  | stopAtDeadline
  | drainBeforeDeadline
  | stopAfterGrace (reason : ρ)

/-- The objects of `createTurnDeadlines`. A signal is the reason it was aborted with, if it was. -/
structure DeadlineState (ρ : Type) where
  graceMs : ℚ
  timers : Timers ℚ (TimerAction ρ)
  /-- The parent signal, if there is one, and what it was aborted with. -/
  parent : Option (Option ρ)
  /-- Whether `abortFromParent` is registered. -/
  parentListening : Bool
  hard : Option (AbortReason ρ)
  /-- Whether `drainFromHard` is registered. -/
  drainListening : Bool
  soft : Option (AbortReason ρ)
  timeout : Option ℕ
  softTimeout : Option ℕ
  stopAfterGrace : Option ℕ
  disposed : Bool

namespace DeadlineState

variable {ρ : Type}

/-- `soft.abort`. A controller is aborted once. -/
def abortSoft (s : DeadlineState ρ) (reason : AbortReason ρ) : DeadlineState ρ :=
  { s with soft := s.soft.or (some reason) }

/-- `hard.abort`: the first abort is heard by `drainFromHard`, once. -/
def abortHard (s : DeadlineState ρ) (reason : AbortReason ρ) : DeadlineState ρ :=
  if s.hard.isSome then s
  else if s.drainListening then
    { s.abortSoft reason with hard := some reason, drainListening := false }
  else { s with hard := some reason }

/-- `createAbortController`, but for its timer: a parent that is aborted already aborts it. -/
def createAbortController (parent : Option (Option ρ)) (graceMs : ℚ) : DeadlineState ρ :=
  let s : DeadlineState ρ :=
    { graceMs, timers := .start, parent, parentListening := parent.isSome, hard := none
      drainListening := false, soft := none, timeout := none, softTimeout := none
      stopAfterGrace := none, disposed := false }
  match parent with
  | some (some reason) => s.abortHard (.given reason)
  | _ => s

/-- The timer of `createAbortController`. -/
def armTimeout (s : DeadlineState ρ) (timeoutMs : ℚ) : DeadlineState ρ :=
  let armed := s.timers.setTimeout timeoutMs .stopAtDeadline
  { s with timers := armed.2, timeout := some armed.1 }

/-- `drainFromHard` is registered, and a controller aborted before is followed at once. -/
def listenToHard (s : DeadlineState ρ) : DeadlineState ρ :=
  match s.hard with
  | some reason => { s.abortSoft reason with drainListening := true }
  | none => { s with drainListening := true }

/-- The soft timer, where there is a grace and nothing has fired. -/
def armSoftTimeout (s : DeadlineState ρ) (timeoutMs : ℚ) : DeadlineState ρ :=
  if 0 < s.graceMs ∧ s.soft.isNone then
    let armed := s.timers.setTimeout (max 0 (timeoutMs - s.graceMs)) .drainBeforeDeadline
    { s with timers := armed.2, softTimeout := some armed.1 }
  else s

/-- `createTurnDeadlines`. -/
def create (parent : Option (Option ρ)) (timeoutMs graceMs : ℚ) : DeadlineState ρ :=
  (((createAbortController parent graceMs).armTimeout timeoutMs).listenToHard).armSoftTimeout
    timeoutMs

/-- `stopAfterGrace ??= setTimeout(...)`. -/
def armStopAfterGrace (s : DeadlineState ρ) (reason : ρ) : DeadlineState ρ :=
  match s.stopAfterGrace with
  | some _ => s
  | none =>
    let armed := s.timers.setTimeout s.graceMs (.stopAfterGrace reason)
    { s with timers := armed.2, stopAfterGrace := some armed.1 }

/-- `drain`. The reason is for the hard stop: the signal of the draining says only that it ends. -/
def drain (s : DeadlineState ρ) (reason : ρ) : DeadlineState ρ :=
  let s := s.abortSoft .turnDraining
  if s.graceMs = 0 then s.abortHard (.given reason)
  else if s.hard.isNone ∧ !s.disposed then s.armStopAfterGrace reason
  else s

/-- `dispose`, and `hard.dispose` with it. -/
def dispose (s : DeadlineState ρ) : DeadlineState ρ :=
  { s with
    disposed := true
    timers := ((s.timers.clearTimeout s.softTimeout).clearTimeout s.stopAfterGrace).clearTimeout
      s.timeout
    softTimeout := none
    drainListening := false
    parentListening := false }

/-- The callback of a timer. -/
def perform (s : DeadlineState ρ) : TimerAction ρ → DeadlineState ρ
  | .stopAtDeadline => s.abortHard .turnTimeout
  | .drainBeforeDeadline => s.abortSoft .turnDraining
  | .stopAfterGrace reason => s.abortHard (.given reason)

/-- The parent is aborted, and `abortFromParent` hears it, once. -/
def parentAborts (s : DeadlineState ρ) (reason : ρ) : DeadlineState ρ :=
  let s := { s with parent := some (some reason) }
  if s.parentListening then { s with parentListening := false }.abortHard (.given reason) else s

end DeadlineState

/-- What can happen to the deadlines of a turn. -/
inductive DeadlineLabel (ρ : Type) where
  | elapse (instant : ℚ)
  | fire (handle : ℕ)
  | parentAbort (reason : ρ)
  | drain (reason : ρ)
  | abort (reason : ρ)
  | dispose

/-- One event. Only a parent that is there and not aborted yet can abort. -/
def deadlineStep {ρ : Type} (s : DeadlineState ρ) : DeadlineLabel ρ → Option (DeadlineState ρ)
  | .elapse instant => (s.timers.elapse instant).map fun timers => { s with timers }
  | .fire handle =>
    (s.timers.fire handle).map fun fired => { s with timers := fired.2 }.perform fired.1
  | .parentAbort reason =>
    match s.parent with
    | some none => some (s.parentAborts reason)
    | _ => none
  | .drain reason => some (s.drain reason)
  | .abort reason => some (s.abortHard (.given reason))
  | .dispose => some s.dispose

/-! ## What each operation leaves alone -/

namespace DeadlineState

variable {ρ : Type} {s : DeadlineState ρ} {reason : AbortReason ρ}

@[simp] theorem abortSoft_soft : (s.abortSoft reason).soft.isSome = true := by
  unfold abortSoft
  cases s.soft <;> rfl

theorem abortHard_hard : (s.abortHard reason).hard.isSome = true := by
  unfold abortHard
  split
  · assumption
  · split <;> rfl

/-- The first reason stands. -/
theorem abortHard_eq_or : (s.abortHard reason).hard = s.hard.or (some reason) := by
  unfold abortHard
  cases hhard : s.hard with
  | some first => exact hhard
  | none =>
      show (if s.drainListening then _ else _ : DeadlineState ρ).hard = some reason
      split <;> rfl

@[simp] theorem abortHard_timers : (s.abortHard reason).timers = s.timers := by
  unfold abortHard
  split
  · rfl
  · split <;> rfl

@[simp] theorem abortHard_disposed : (s.abortHard reason).disposed = s.disposed := by
  unfold abortHard
  split
  · rfl
  · split <;> rfl

@[simp] theorem abortHard_graceMs : (s.abortHard reason).graceMs = s.graceMs := by
  unfold abortHard
  split
  · rfl
  · split <;> rfl

/-- What a drained turn has, it keeps. -/
theorem abortHard_soft (h : s.soft.isSome) : (s.abortHard reason).soft.isSome := by
  unfold abortHard
  split
  · exact h
  · split
    · exact abortSoft_soft
    · exact h

/-- The parent's side and the handles are no business of an abort. -/
theorem abortHard_rest : (s.abortHard reason).parent = s.parent ∧
    (s.abortHard reason).parentListening = s.parentListening ∧
    (s.abortHard reason).timeout = s.timeout ∧
    (s.abortHard reason).softTimeout = s.softTimeout ∧
    (s.abortHard reason).stopAfterGrace = s.stopAfterGrace := by
  unfold abortHard
  split
  · exact ⟨rfl, rfl, rfl, rfl, rfl⟩
  · split <;> exact ⟨rfl, rfl, rfl, rfl, rfl⟩

section Drain

variable {given : ρ}

theorem armStopAfterGrace_rest : (s.armStopAfterGrace given).hard = s.hard ∧
    (s.armStopAfterGrace given).soft = s.soft ∧
    (s.armStopAfterGrace given).disposed = s.disposed ∧
    (s.armStopAfterGrace given).graceMs = s.graceMs ∧
    (s.armStopAfterGrace given).timers.now = s.timers.now := by
  unfold DeadlineState.armStopAfterGrace
  split <;> exact ⟨rfl, rfl, rfl, rfl, rfl⟩

theorem drain_eq : s.drain given =
    if s.graceMs = 0 then (s.abortSoft .turnDraining).abortHard (.given given)
    else if s.hard.isNone ∧ !s.disposed then (s.abortSoft .turnDraining).armStopAfterGrace given
    else s.abortSoft .turnDraining := rfl

/-- What a drain does: it stops the turn, arms the timer that will, or finds nothing to stop. -/
theorem drain_cases :
    (s.graceMs = 0 ∧ s.drain given = (s.abortSoft .turnDraining).abortHard (.given given)) ∨
    (s.graceMs ≠ 0 ∧ s.disposed = false ∧
      s.drain given = (s.abortSoft .turnDraining).armStopAfterGrace given) ∨
    (s.graceMs ≠ 0 ∧ (s.hard.isSome ∨ s.disposed = true) ∧
      s.drain given = s.abortSoft .turnDraining) := by
  rw [drain_eq]
  by_cases hzero : s.graceMs = 0
  · exact .inl ⟨hzero, if_pos hzero⟩
  · refine .inr ?_
    rw [if_neg hzero]
    by_cases hopen : s.hard.isNone ∧ !s.disposed
    · exact .inl ⟨hzero, by simpa using hopen.2, if_pos hopen⟩
    · refine .inr ⟨hzero, ?_, if_neg hopen⟩
      rcases not_and_or.mp hopen with hstopped | hdisposed
      · exact .inl (by simpa [Option.isSome_iff_ne_none] using hstopped)
      · exact .inr (by simpa using hdisposed)

/-- A drain drains, and leaves the clock, the grace and the disposal as they are. -/
theorem drain_rest : (s.drain given).soft.isSome ∧ (s.drain given).disposed = s.disposed ∧
    (s.drain given).graceMs = s.graceMs ∧ (s.drain given).timers.now = s.timers.now := by
  rcases @drain_cases ρ s given with ⟨-, heq⟩ | ⟨-, -, heq⟩ | ⟨-, -, heq⟩
  · rw [heq, abortHard_disposed, abortHard_graceMs, abortHard_timers]
    exact ⟨abortHard_soft abortSoft_soft, rfl, rfl, rfl⟩
  · obtain ⟨-, hsoft, hdisposed, hgrace, hnow⟩ :=
      @armStopAfterGrace_rest ρ (s.abortSoft .turnDraining) given
    rw [heq, hsoft, hdisposed, hgrace, hnow]
    exact ⟨abortSoft_soft, rfl, rfl, rfl⟩
  · rw [heq]
    exact ⟨abortSoft_soft, rfl, rfl, rfl⟩

theorem drain_hard (h : s.hard.isSome) : (s.drain given).hard.isSome := by
  rcases @drain_cases ρ s given with ⟨-, heq⟩ | ⟨-, -, heq⟩ | ⟨-, -, heq⟩
  · rw [heq]
    exact abortHard_hard
  · rw [heq, armStopAfterGrace_rest.1]
    exact h
  · rw [heq]
    exact h

/-- A drain only arms. -/
theorem drain_pending {P : TimerAction ρ → Prop} {limit : ℚ}
    (h : s.timers.PendingBy P limit) :
    (s.drain given).timers.PendingBy P limit := by
  rcases @drain_cases ρ s given with ⟨-, heq⟩ | ⟨-, -, heq⟩ | ⟨-, -, heq⟩
  · rw [heq, abortHard_timers]
    exact h
  · rw [heq]
    unfold DeadlineState.armStopAfterGrace
    split
    · exact h
    · exact Timers.PendingBy.setTimeout h
  · rw [heq]
    exact h

end Drain

end DeadlineState

/-! ## The invariant -/

/-- Every pending timer is under a handle that `dispose` clears. -/
def DeadlineState.Handled {ρ : Type} (s : DeadlineState ρ) : Prop :=
  ∀ timer ∈ s.timers.pending, some timer.handle = s.timeout ∨
    some timer.handle = s.softTimeout ∨ some timer.handle = s.stopAfterGrace

/-- A stopped turn is draining, a live one can still be stopped by its parent and hears its own stop,
and a disposed one has let go of everything. -/
structure DeadlineState.Sound {ρ : Type} (s : DeadlineState ρ) : Prop where
  handled : s.Handled
  drained : s.disposed = false → s.hard.isSome → s.soft.isSome
  hears : s.disposed = false → s.hard = none → s.drainListening = true
  followsParent : s.disposed = false → s.parent = some none → s.parentListening = true
  released : s.disposed = true → s.timers.pending = [] ∧ s.parentListening = false

namespace DeadlineState

variable {ρ : Type} {s s' : DeadlineState ρ} {reason : AbortReason ρ}

/-- A hard stop of a live turn drains it. -/
theorem Sound.abortHard_drains (h : s.Sound) (hlive : s.disposed = false) :
    (s.abortHard reason).soft.isSome := by
  cases hhard : s.hard with
  | some first => exact abortHard_soft (h.drained hlive (by rw [hhard]; rfl))
  | none =>
      unfold abortHard
      rw [hhard, h.hears hlive hhard]
      exact abortSoft_soft

theorem Sound.abortSoft (h : s.Sound) : (s.abortSoft reason).Sound where
  handled := h.handled
  drained _ _ := abortSoft_soft
  hears := h.hears
  followsParent := h.followsParent
  released := h.released

theorem Sound.abortHard (h : s.Sound) : (s.abortHard reason).Sound := by
  obtain ⟨hparent, hlistening, htimeout, hsoft, hgrace⟩ := @abortHard_rest ρ s reason
  refine ⟨?_, fun hlive _ => ?_, fun _ hnone => ?_, fun hlive hlives => ?_, fun hdisposed => ?_⟩
  · unfold Handled
    rw [abortHard_timers, htimeout, hsoft, hgrace]
    exact h.handled
  · rw [abortHard_disposed] at hlive
    exact h.abortHard_drains hlive
  · have hstopped := @abortHard_hard ρ s reason
    rw [hnone] at hstopped
    cases hstopped
  · rw [abortHard_disposed] at hlive
    rw [hparent] at hlives
    rw [hlistening]
    exact h.followsParent hlive hlives
  · rw [abortHard_disposed] at hdisposed
    rw [abortHard_timers, hlistening]
    exact h.released hdisposed

theorem Sound.armStopAfterGrace {given : ρ} (h : s.Sound) (hlive : s.disposed = false) :
    (s.armStopAfterGrace given).Sound := by
  unfold DeadlineState.armStopAfterGrace
  split
  · exact h
  · next hunset =>
      refine ⟨fun timer htimer => ?_, h.drained, h.hears, h.followsParent, fun hdisposed => ?_⟩
      · rcases Timers.mem_setTimeout.mp htimer with hold | rfl
        · rcases h.handled timer hold with hhandle | hhandle | hhandle
          · exact .inl hhandle
          · exact .inr (.inl hhandle)
          · rw [hunset] at hhandle
            cases hhandle
        · exact .inr (.inr rfl)
      · rw [hlive] at hdisposed
        cases hdisposed

theorem Sound.drain {given : ρ} (h : s.Sound) : (s.drain given).Sound := by
  rcases @drain_cases ρ s given with ⟨-, heq⟩ | ⟨-, hlive, heq⟩ | ⟨-, -, heq⟩
  · rw [heq]
    exact h.abortSoft.abortHard
  · rw [heq]
    exact h.abortSoft.armStopAfterGrace hlive
  · rw [heq]
    exact h.abortSoft

/-- Whatever was pending was under one of the three handles. -/
theorem Sound.dispose (h : s.Sound) : s.dispose.Sound := by
  have hnone : s.dispose.timers.pending = [] := by
    refine List.eq_nil_iff_forall_not_mem.mpr fun timer htimer => ?_
    obtain ⟨htimer, htimeout⟩ := Timers.mem_clearTimeout.mp htimer
    obtain ⟨htimer, hgrace⟩ := Timers.mem_clearTimeout.mp htimer
    obtain ⟨htimer, hsoft⟩ := Timers.mem_clearTimeout.mp htimer
    rcases h.handled timer htimer with hhandle | hhandle | hhandle
    · exact htimeout hhandle
    · exact hsoft hhandle
    · exact hgrace hhandle
  refine ⟨fun timer htimer => ?_, nofun, nofun, nofun, fun _ => ⟨hnone, rfl⟩⟩
  rw [hnone] at htimer
  cases htimer

/-- Timers that fire or wait are still under their handles. -/
theorem Sound.timers {timers : Timers ℚ (TimerAction ρ)} (h : s.Sound)
    (hpending : ∀ timer ∈ timers.pending, timer ∈ s.timers.pending) :
    { s with timers }.Sound where
  handled timer htimer := h.handled timer (hpending timer htimer)
  drained := h.drained
  hears := h.hears
  followsParent := h.followsParent
  released hdisposed := by
    obtain ⟨hnone, hparent⟩ := h.released hdisposed
    refine ⟨List.eq_nil_iff_forall_not_mem.mpr fun timer htimer => ?_, hparent⟩
    have hbefore := hpending timer htimer
    rw [hnone] at hbefore
    cases hbefore

theorem Sound.perform {action : TimerAction ρ} (h : s.Sound) : (s.perform action).Sound := by
  cases action with
  | stopAtDeadline => exact h.abortHard
  | drainBeforeDeadline => exact h.abortSoft
  | stopAfterGrace given => exact h.abortHard

/-- A parent that has aborted is not waited for. -/
theorem Sound.heard {given : ρ} (h : s.Sound) :
    { s with parent := some (some given), parentListening := false }.Sound :=
  ⟨h.handled, h.drained, h.hears, nofun, fun hdisposed => ⟨(h.released hdisposed).1, rfl⟩⟩

theorem Sound.parentAborts {given : ρ} (h : s.Sound) : (s.parentAborts given).Sound := by
  have hmarked : { s with parent := some (some given) }.Sound :=
    ⟨h.handled, h.drained, h.hears, nofun, h.released⟩
  unfold DeadlineState.parentAborts
  dsimp only
  split
  · exact h.heard.abortHard
  · exact hmarked

end DeadlineState

section Runs

variable {ρ : Type} {s s' : DeadlineState ρ} {label : DeadlineLabel ρ}

/-- What fires was pending, and nothing is armed by firing. -/
theorem Timers.fire_pending {handle : ℕ} {fired : TimerAction ρ × Timers ℚ (TimerAction ρ)}
    (h : s.timers.fire handle = some fired) :
    ∀ timer ∈ fired.2.pending, timer ∈ s.timers.pending := by
  obtain ⟨_, _, _, _, _, heq⟩ := Timers.fire_eq h
  intro timer htimer
  rw [heq] at htimer
  exact (Timers.mem_clearTimeout.mp htimer).1

theorem parentAbort_eq {reason : ρ} : deadlineStep s (.parentAbort reason) = some s' ↔
    s.parent = some none ∧ s' = s.parentAborts reason := by
  obtain ⟨_, _, parent, _, _, _, _, _, _, _, _⟩ := s
  rcases parent with - | - | first
  · exact ⟨nofun, nofun⟩
  · exact ⟨fun h => ⟨rfl, (Option.some.inj h).symm⟩, fun h => h.2 ▸ rfl⟩
  · exact ⟨nofun, nofun⟩

theorem deadlineStep_sound (h : s.Sound) (hstep : deadlineStep s label = some s') : s'.Sound := by
  cases label with
  | elapse instant =>
      obtain ⟨timers, helapse, rfl⟩ := Option.map_eq_some_iff.mp hstep
      refine h.timers fun timer htimer => ?_
      rwa [(Timers.elapse_eq helapse).2.2] at htimer
  | fire handle =>
      obtain ⟨fired, hfire, rfl⟩ := Option.map_eq_some_iff.mp hstep
      exact (h.timers (Timers.fire_pending hfire)).perform
  | parentAbort reason =>
      obtain ⟨-, rfl⟩ := parentAbort_eq.mp hstep
      exact h.parentAborts
  | drain reason =>
      obtain rfl := Option.some.inj hstep
      exact h.drain
  | abort reason =>
      obtain rfl := Option.some.inj hstep
      exact h.abortHard
  | dispose =>
      obtain rfl := Option.some.inj hstep
      exact h.dispose

/-! ## Creation -/

namespace DeadlineState

theorem Sound.armSoftTimeout {timeoutMs : ℚ} (h : s.Sound) (hlive : s.disposed = false)
    (hunset : s.softTimeout = none) : (s.armSoftTimeout timeoutMs).Sound := by
  unfold DeadlineState.armSoftTimeout
  split
  · refine ⟨fun timer htimer => ?_, h.drained, h.hears, h.followsParent, fun hdisposed => ?_⟩
    · rcases Timers.mem_setTimeout.mp htimer with hold | rfl
      · rcases h.handled timer hold with hhandle | hhandle | hhandle
        · exact .inl hhandle
        · rw [hunset] at hhandle
          cases hhandle
        · exact .inr (.inr hhandle)
      · exact .inr (.inl rfl)
    · rw [hlive] at hdisposed
      cases hdisposed
  · exact h

/-- The machine before its soft timer: stopped and draining where the parent had stopped. -/
def armed (parent : Option (Option ρ)) (timeoutMs graceMs : ℚ) : DeadlineState ρ :=
  ((createAbortController parent graceMs).armTimeout timeoutMs).listenToHard

/-- Only the deadline is armed. -/
theorem armed_timers (parent : Option (Option ρ)) (timeoutMs graceMs : ℚ) :
    (armed parent timeoutMs graceMs).timers.pending =
      [{ handle := 0, due := 0 + max 0 timeoutMs, action := .stopAtDeadline }] := by
  rcases parent with - | - | reason <;> rfl

theorem armed_sound (parent : Option (Option ρ)) (timeoutMs graceMs : ℚ) :
    (armed parent timeoutMs graceMs).Sound := by
  have hhandled : (armed parent timeoutMs graceMs).Handled := by
    intro timer htimer
    rw [armed_timers, List.mem_singleton] at htimer
    rw [htimer]
    left
    rcases parent with - | - | reason <;> rfl
  rcases parent with - | - | reason
  · exact ⟨hhandled, nofun, fun _ _ => rfl, nofun, nofun⟩
  · exact ⟨hhandled, nofun, fun _ _ => rfl, fun _ _ => rfl, nofun⟩
  · exact ⟨hhandled, fun _ _ => rfl, nofun, nofun, nofun⟩

theorem create_sound (parent : Option (Option ρ)) (timeoutMs graceMs : ℚ) :
    (create parent timeoutMs graceMs).Sound := by
  refine (armed_sound parent timeoutMs graceMs).armSoftTimeout ?_ ?_
  · rcases parent with - | - | reason <;> rfl
  · rcases parent with - | - | reason <;> rfl

/-! ## In time -/

end DeadlineState

/-- The actions that stop the turn. -/
def TimerAction.Stops {ρ : Type} : TimerAction ρ → Prop
  | .stopAtDeadline | .stopAfterGrace _ => True
  | .drainBeforeDeadline => False

namespace DeadlineState

/-- The turn is over, has stopped, or is stopped by a timer due by then. -/
def StopsBy (limit : ℚ) (s : DeadlineState ρ) : Prop :=
  s.disposed = true ∨ s.hard.isSome ∨ s.timers.PendingBy TimerAction.Stops limit

/-- The turn is over, drains, or is drained by a timer due by then. Every timer drains. -/
def DrainsBy (limit : ℚ) (s : DeadlineState ρ) : Prop :=
  s.disposed = true ∨ s.soft.isSome ∨ s.timers.PendingBy (fun _ => True) limit

variable {limit : ℚ}

theorem perform_stops {action : TimerAction ρ} (h : action.Stops) :
    (s.perform action).hard.isSome := by
  cases action with
  | stopAtDeadline => exact abortHard_hard
  | drainBeforeDeadline => exact absurd h id
  | stopAfterGrace given => exact abortHard_hard

/-- Whatever fires in a live turn drains it. -/
theorem Sound.perform_drains {timers : Timers ℚ (TimerAction ρ)} {action : TimerAction ρ}
    (h : s.Sound) (hlive : s.disposed = false) : ({ s with timers }.perform action).soft.isSome := by
  have hstops : ∀ reason, ({ s with timers }.abortHard reason).soft.isSome := by
    intro reason
    have hdrains := @Sound.abortHard_drains ρ s reason h hlive
    unfold DeadlineState.abortHard at hdrains ⊢
    split
    · next hstopped =>
        rw [if_pos hstopped] at hdrains
        exact hdrains
    · next hopen =>
        rw [if_neg hopen] at hdrains
        split
        · exact abortSoft_soft
        · next hdeaf =>
            rw [if_neg hdeaf] at hdrains
            exact hdrains
  cases action with
  | stopAtDeadline => exact hstops _
  | drainBeforeDeadline => exact abortSoft_soft
  | stopAfterGrace given => exact hstops _

theorem perform_stopAfterGrace {action : TimerAction ρ} :
    (s.perform action).stopAfterGrace = s.stopAfterGrace := by
  cases action with
  | stopAtDeadline => exact abortHard_rest.2.2.2.2
  | drainBeforeDeadline => rfl
  | stopAfterGrace given => exact abortHard_rest.2.2.2.2

theorem parentAborts_rest {given : ρ} : (s.parentAborts given).timers = s.timers ∧
    (s.parentAborts given).stopAfterGrace = s.stopAfterGrace := by
  unfold DeadlineState.parentAborts
  dsimp only
  split
  · exact ⟨abortHard_timers, abortHard_rest.2.2.2.2⟩
  · exact ⟨rfl, rfl⟩

@[simp] theorem perform_timers {action : TimerAction ρ} :
    (s.perform action).timers = s.timers := by
  cases action with
  | stopAtDeadline => exact abortHard_timers
  | drainBeforeDeadline => rfl
  | stopAfterGrace given => exact abortHard_timers

@[simp] theorem perform_disposed {action : TimerAction ρ} :
    (s.perform action).disposed = s.disposed := by
  cases action with
  | stopAtDeadline => exact abortHard_disposed
  | drainBeforeDeadline => rfl
  | stopAfterGrace given => exact abortHard_disposed

theorem StopsBy.weaken {later : ℚ} (h : s.StopsBy limit) (hle : limit ≤ later) :
    s.StopsBy later :=
  h.imp_right (Or.imp_right fun hpending => hpending.weaken hle)

/-! ## Draining -/

section Drain

variable {given : ρ}

/-- The timer of an earlier drain is in time for a later one. -/
def GraceArmed (s : DeadlineState ρ) : Prop :=
  s.stopAfterGrace.isSome → s.StopsBy (s.timers.now + s.graceMs)

/-- **A drain stops the turn after the grace.** -/
theorem GraceArmed.drain_stopsBy (h : s.GraceArmed) (hgrace : 0 ≤ s.graceMs) :
    (s.drain given).StopsBy (s.timers.now + s.graceMs) := by
  rcases @drain_cases ρ s given with ⟨-, heq⟩ | ⟨-, -, heq⟩ | ⟨-, hshut, heq⟩
  · rw [heq]
    exact .inr (.inl abortHard_hard)
  · rw [heq]
    unfold DeadlineState.armStopAfterGrace
    split
    · next hset => exact h (by rw [show s.stopAfterGrace = some _ from hset]; rfl)
    · -- the timer is due after the grace, which is not negative
      have hpending := @Timers.pendingBy_armed ℚ _ _ _ _ TimerAction.Stops s.timers s.graceMs
        (.stopAfterGrace given) trivial
      rw [max_eq_right hgrace] at hpending
      exact .inr (.inr hpending)
  · rw [heq]
    rcases hshut with hstopped | hdisposed
    · exact .inr (.inl hstopped)
    · exact .inl hdisposed

end Drain

end DeadlineState

open DeadlineState

/-! ## What every step keeps -/

/-- Time goes on, and what has fired, and what is over, stays so. -/
structure FiredStays (s s' : DeadlineState ρ) : Prop where
  now : s.timers.now ≤ s'.timers.now
  graceMs : s'.graceMs = s.graceMs
  disposed : s.disposed = true → s'.disposed = true
  hard : s.hard.isSome → s'.hard.isSome
  soft : s.soft.isSome → s'.soft.isSome

theorem FiredStays.abortHard {reason : AbortReason ρ} : FiredStays s (s.abortHard reason) where
  now := by rw [abortHard_timers]
  graceMs := abortHard_graceMs
  disposed h := by rwa [abortHard_disposed]
  hard _ := abortHard_hard
  soft := abortHard_soft

theorem FiredStays.perform {action : TimerAction ρ} : FiredStays s (s.perform action) := by
  cases action with
  | stopAtDeadline => exact FiredStays.abortHard
  | drainBeforeDeadline => exact ⟨le_rfl, rfl, id, id, fun _ => abortSoft_soft⟩
  | stopAfterGrace given => exact FiredStays.abortHard

theorem deadlineStep_firedStays (hstep : deadlineStep s label = some s') : FiredStays s s' := by
  cases label with
  | elapse instant =>
      obtain ⟨timers, helapse, rfl⟩ := Option.map_eq_some_iff.mp hstep
      obtain ⟨hnow, hle, -⟩ := Timers.elapse_eq helapse
      exact ⟨by rw [← hnow] at hle; exact hle, rfl, id, id, id⟩
  | fire handle =>
      obtain ⟨fired, hfire, rfl⟩ := Option.map_eq_some_iff.mp hstep
      obtain ⟨_, _, _, _, _, heq⟩ := Timers.fire_eq hfire
      have hperform := @FiredStays.perform ρ { s with timers := fired.2 } fired.1
      have hnow : fired.2.now = s.timers.now := by rw [heq]; rfl
      exact ⟨hnow ▸ hperform.now, hperform.graceMs, hperform.disposed, hperform.hard, hperform.soft⟩
  | parentAbort reason =>
      obtain ⟨-, rfl⟩ := parentAbort_eq.mp hstep
      unfold DeadlineState.parentAborts
      dsimp only
      split
      · have habort := @FiredStays.abortHard ρ
          { s with parent := some (some reason), parentListening := false } (.given reason)
        exact ⟨habort.now, habort.graceMs, habort.disposed, habort.hard, habort.soft⟩
      · exact ⟨le_rfl, rfl, id, id, id⟩
  | drain reason =>
      obtain rfl := Option.some.inj hstep
      obtain ⟨hsoft, hdisposed, hgrace, hnow⟩ := @drain_rest ρ s reason
      exact ⟨hnow.ge, hgrace, fun h => hdisposed.trans h, drain_hard, fun _ => hsoft⟩
  | abort reason =>
      obtain rfl := Option.some.inj hstep
      exact FiredStays.abortHard
  | dispose =>
      obtain rfl := Option.some.inj hstep
      exact ⟨le_rfl, rfl, fun _ => rfl, id, id⟩

/-- **No timer is lost**: a pending one stays pending, or fires, or the turn is disposed of. -/
theorem deadlineStep_pending {P : TimerAction ρ → Prop} {limit : ℚ}
    (h : s.timers.PendingBy P limit) (hstep : deadlineStep s label = some s') :
    (∃ timers action, P action ∧ s' = { s with timers }.perform action) ∨ s'.disposed = true ∨
      s'.timers.PendingBy P limit := by
  cases label with
  | elapse instant =>
      obtain ⟨timers, helapse, rfl⟩ := Option.map_eq_some_iff.mp hstep
      exact .inr (.inr (h.elapse helapse))
  | fire handle =>
      obtain ⟨fired, hfire, rfl⟩ := Option.map_eq_some_iff.mp hstep
      rcases h.fire hfire with hkind | hpending
      · exact .inl ⟨fired.2, fired.1, hkind, rfl⟩
      · refine .inr (.inr ?_)
        rw [perform_timers]
        exact hpending
  | parentAbort reason =>
      obtain ⟨-, rfl⟩ := parentAbort_eq.mp hstep
      refine .inr (.inr ?_)
      rw [parentAborts_rest.1]
      exact h
  | drain reason =>
      obtain rfl := Option.some.inj hstep
      exact .inr (.inr (drain_pending h))
  | abort reason =>
      obtain rfl := Option.some.inj hstep
      refine .inr (.inr ?_)
      rw [abortHard_timers]
      exact h
  | dispose =>
      obtain rfl := Option.some.inj hstep
      exact .inr (.inl rfl)

theorem DeadlineState.StopsBy.step {limit : ℚ} (h : s.StopsBy limit) (hstep : deadlineStep s label = some s') :
    s'.StopsBy limit := by
  rcases h with hdisposed | hhard | hpending
  · exact .inl ((deadlineStep_firedStays hstep).disposed hdisposed)
  · exact .inr (.inl ((deadlineStep_firedStays hstep).hard hhard))
  · rcases deadlineStep_pending hpending hstep with ⟨_, _, hstops, rfl⟩ | hdisposed | hpending
    · exact .inr (.inl (perform_stops hstops))
    · exact .inl hdisposed
    · exact .inr (.inr hpending)

theorem DeadlineState.DrainsBy.step {limit : ℚ} (h : s.DrainsBy limit) (hsound : s.Sound)
    (hstep : deadlineStep s label = some s') : s'.DrainsBy limit := by
  rcases h with hdisposed | hsoft | hpending
  · exact .inl ((deadlineStep_firedStays hstep).disposed hdisposed)
  · exact .inr (.inl ((deadlineStep_firedStays hstep).soft hsoft))
  · rcases deadlineStep_pending hpending hstep with ⟨timers, action, -, rfl⟩ | hdisposed | hpending
    · by_cases hover : s.disposed = true
      · left
        rw [perform_disposed]
        exact hover
      · exact .inr (.inl (hsound.perform_drains (by simpa using hover)))
    · exact .inl hdisposed
    · exact .inr (.inr hpending)

/-- What arms the timer of a drain makes it in time, and time only runs towards it. -/
theorem DeadlineState.GraceArmed.step (h : s.GraceArmed) (hgrace : 0 ≤ s.graceMs)
    (hstep : deadlineStep s label = some s') : s'.GraceArmed := by
  have hstays := deadlineStep_firedStays hstep
  have hlimit : s.timers.now + s.graceMs ≤ s'.timers.now + s'.graceMs := by
    rw [hstays.graceMs]
    exact add_le_add_left hstays.now _
  intro hset
  by_cases hbefore : s.stopAfterGrace.isSome
  · exact ((h hbefore).step hstep).weaken hlimit
  · cases label with
    | drain reason =>
        obtain rfl := Option.some.inj hstep
        exact (h.drain_stopsBy hgrace).weaken hlimit
    | elapse instant =>
        obtain ⟨timers, -, rfl⟩ := Option.map_eq_some_iff.mp hstep
        exact absurd hset hbefore
    | fire handle =>
        obtain ⟨fired, -, rfl⟩ := Option.map_eq_some_iff.mp hstep
        rw [perform_stopAfterGrace] at hset
        exact absurd hset hbefore
    | parentAbort reason =>
        obtain ⟨-, rfl⟩ := parentAbort_eq.mp hstep
        rw [parentAborts_rest.2] at hset
        exact absurd hset hbefore
    | abort reason =>
        obtain rfl := Option.some.inj hstep
        rw [abortHard_rest.2.2.2.2] at hset
        exact absurd hset hbefore
    | dispose =>
        obtain rfl := Option.some.inj hstep
        exact absurd hset hbefore

/-! ## Whole runs -/

namespace DeadlineState

theorem create_graceMs (parent : Option (Option ρ)) (timeoutMs graceMs : ℚ) :
    (create parent timeoutMs graceMs).graceMs = graceMs := by
  unfold create DeadlineState.armSoftTimeout
  split <;> (rcases parent with - | - | reason <;> rfl)

theorem create_graceArmed (parent : Option (Option ρ)) (timeoutMs graceMs : ℚ) :
    (create parent timeoutMs graceMs).GraceArmed := by
  have hunset : (create parent timeoutMs graceMs).stopAfterGrace = none := by
    unfold create DeadlineState.armSoftTimeout
    split <;> (rcases parent with - | - | reason <;> rfl)
  intro hset
  rw [hunset] at hset
  cases hset

theorem armed_pending (parent : Option (Option ρ)) (timeoutMs graceMs : ℚ) :
    (armed parent timeoutMs graceMs).timers.PendingBy TimerAction.Stops (max 0 timeoutMs) := by
  refine ⟨{ handle := 0, due := 0 + max 0 timeoutMs, action := .stopAtDeadline }, ?_, trivial,
    (zero_add _).le⟩
  rw [armed_timers]
  exact List.mem_singleton_self _

/-- The deadline is armed. -/
theorem create_stopsBy (parent : Option (Option ρ)) (timeoutMs graceMs : ℚ) :
    (create parent timeoutMs graceMs).StopsBy (max 0 timeoutMs) := by
  refine .inr (.inr ?_)
  show ((armed parent timeoutMs graceMs).armSoftTimeout timeoutMs).timers.PendingBy _ _
  unfold DeadlineState.armSoftTimeout
  split
  · exact Timers.PendingBy.setTimeout (armed_pending parent timeoutMs graceMs)
  · exact armed_pending parent timeoutMs graceMs

/-- The soft timer is armed the grace ahead of the deadline. Without a grace the deadline is it. -/
theorem create_drainsBy (parent : Option (Option ρ)) (timeoutMs : ℚ) {graceMs : ℚ}
    (hgrace : 0 ≤ graceMs) :
    (create parent timeoutMs graceMs).DrainsBy (max 0 (timeoutMs - graceMs)) := by
  have hnow : (armed parent timeoutMs graceMs).timers.now = 0 := by
    rcases parent with - | - | reason <;> rfl
  have hgraceMs : (armed parent timeoutMs graceMs).graceMs = graceMs := by
    rcases parent with - | - | reason <;> rfl
  right
  show ((armed parent timeoutMs graceMs).armSoftTimeout timeoutMs).soft.isSome ∨
    ((armed parent timeoutMs graceMs).armSoftTimeout timeoutMs).timers.PendingBy _ _
  unfold DeadlineState.armSoftTimeout
  split
  · right
    have hpending := @Timers.pendingBy_armed ℚ _ _ _ _ (fun _ => True)
      (armed parent timeoutMs graceMs).timers
      (max 0 (timeoutMs - (armed parent timeoutMs graceMs).graceMs))
      (.drainBeforeDeadline : TimerAction ρ) trivial
    rw [hnow, hgraceMs, zero_add, max_eq_right (le_max_left _ _)] at hpending
    rw [hgraceMs]
    exact hpending
  · next hshut =>
      rcases not_and_or.mp hshut with hzero | hsoft
      · right
        rw [hgraceMs] at hzero
        have hnone : graceMs = 0 := le_antisymm (not_lt.mp hzero) hgrace
        obtain ⟨timer, htimer, -, hdue⟩ := armed_pending parent timeoutMs graceMs
        rw [hnone] at htimer ⊢
        rw [sub_zero]
        exact ⟨timer, htimer, trivial, hdue⟩
      · left
        simpa [Option.isSome_iff_ne_none] using hsoft

end DeadlineState

/-- What holds in every state a run reaches. -/
structure DeadlinesSound (timeoutMs graceMs : ℚ) (s : DeadlineState ρ) : Prop where
  sound : s.Sound
  grace : s.graceMs = graceMs
  armed : s.GraceArmed
  stops : s.StopsBy (max 0 timeoutMs)
  drains : s.DrainsBy (max 0 (timeoutMs - graceMs))

theorem deadlinesSound_run {timeoutMs graceMs : ℚ} (hgrace : 0 ≤ graceMs)
    {labels : List (DeadlineLabel ρ)} (h : DeadlinesSound timeoutMs graceMs s)
    (hrun : run deadlineStep s labels = some s') : DeadlinesSound timeoutMs graceMs s' := by
  refine run_invariant ?_ h hrun
  intro s label s' h hstep
  exact ⟨deadlineStep_sound h.sound hstep, (deadlineStep_firedStays hstep).graceMs.trans h.grace,
    h.armed.step (h.grace.symm ▸ hgrace) hstep, h.stops.step hstep, h.drains.step h.sound hstep⟩

/-! ## The two signals -/

/-- A turn that is not disposed of. Instants are counted from its creation, and one before it is the
creation itself. -/
structure LiveDeadlines (timeoutMs graceMs : ℚ) (s : DeadlineState ρ) : Prop where
  /-- A stopped turn is draining. -/
  drained : s.hard.isSome → s.soft.isSome
  /-- The turn stops by its deadline: until it has, a timer that stops it is pending. -/
  deadline : s.hard = none →
    s.timers.now ≤ max 0 timeoutMs ∧ s.timers.PendingBy TimerAction.Stops (max 0 timeoutMs)
  /-- The turn drains by the grace before its deadline. -/
  draining : s.soft = none → s.timers.now ≤ max 0 (timeoutMs - graceMs) ∧
    s.timers.PendingBy (fun _ => True) (max 0 (timeoutMs - graceMs))
  /-- A drain without a grace stops the turn at once. -/
  atOnce : graceMs = 0 → ∀ reason s', deadlineStep s (.drain reason) = some s' →
    s'.hard.isSome ∧ s'.soft.isSome
  /-- A drain drains at once, and however the run goes on the turn stops by the grace after it. -/
  afterGrace : ∀ reason s₁ labels s', deadlineStep s (.drain reason) = some s₁ →
    run deadlineStep s₁ labels = some s' →
    s₁.soft.isSome ∧ (s'.disposed = false → s'.hard = none →
      s'.timers.now ≤ s.timers.now + graceMs ∧
        s'.timers.PendingBy TimerAction.Stops (s.timers.now + graceMs))
  /-- A parent's abort is a stop, whatever the grace. -/
  parent : ∀ reason s', deadlineStep s (.parentAbort reason) = some s' →
    s'.hard.isSome ∧ s'.soft.isSome

/-- A turn that is disposed of. -/
structure DisposedDeadlines (s : DeadlineState ρ) : Prop where
  /-- No timer is pending, and none is ever armed again. -/
  unarmed : ∀ labels s', run deadlineStep s labels = some s' →
    s'.disposed = true ∧ s'.timers.pending = [] ∧ s'.timers.next = s.timers.next
  /-- Time, a timer or the parent changes neither signal. -/
  deaf : ∀ label s', deadlineStep s label = some s' →
    (∃ instant, label = .elapse instant) ∨ (∃ handle, label = .fire handle) ∨
      (∃ reason, label = .parentAbort reason) → s'.hard = s.hard ∧ s'.soft = s.soft

/-- A disposed turn arms nothing. -/
theorem disposed_step (h : s.Sound) (hdisposed : s.disposed = true)
    (hstep : deadlineStep s label = some s') : s'.timers.next = s.timers.next := by
  cases label with
  | elapse instant =>
      obtain ⟨timers, helapse, rfl⟩ := Option.map_eq_some_iff.mp hstep
      unfold Timers.elapse at helapse
      split at helapse
      · obtain rfl := Option.some.inj helapse
        rfl
      · cases helapse
  | fire handle =>
      obtain ⟨fired, hfire, rfl⟩ := Option.map_eq_some_iff.mp hstep
      obtain ⟨timer, htimer, -⟩ := Timers.fire_eq hfire
      rw [(h.released hdisposed).1] at htimer
      cases htimer
  | parentAbort reason =>
      obtain ⟨-, rfl⟩ := parentAbort_eq.mp hstep
      rw [parentAborts_rest.1]
  | drain reason =>
      obtain rfl := Option.some.inj hstep
      rcases @drain_cases ρ s reason with ⟨-, heq⟩ | ⟨-, hlive, -⟩ | ⟨-, -, heq⟩
      · rw [heq, abortHard_timers]
        rfl
      · rw [hdisposed] at hlive
        cases hlive
      · rw [heq]
        rfl
  | abort reason =>
      obtain rfl := Option.some.inj hstep
      rw [abortHard_timers]
  | dispose =>
      obtain rfl := Option.some.inj hstep
      rfl

theorem disposedDeadlines (h : s.Sound) (hdisposed : s.disposed = true) : DisposedDeadlines s where
  unarmed labels s' hrun := by
    have hkept : s'.Sound ∧ s'.disposed = true ∧ s'.timers.next = s.timers.next := by
      refine run_invariant (I := fun s' => s'.Sound ∧ s'.disposed = true ∧
        s'.timers.next = s.timers.next) ?_ ⟨h, hdisposed, rfl⟩ hrun
      rintro s₁ label s₂ ⟨hsound, hover, hnext⟩ hstep
      exact ⟨deadlineStep_sound hsound hstep, (deadlineStep_firedStays hstep).disposed hover,
        (disposed_step hsound hover hstep).trans hnext⟩
    exact ⟨hkept.2.1, (hkept.1.released hkept.2.1).1, hkept.2.2⟩
  deaf label s' hstep hlabel := by
    rcases hlabel with ⟨instant, rfl⟩ | ⟨handle, rfl⟩ | ⟨reason, rfl⟩
    · obtain ⟨timers, -, rfl⟩ := Option.map_eq_some_iff.mp hstep
      exact ⟨rfl, rfl⟩
    · obtain ⟨fired, hfire, rfl⟩ := Option.map_eq_some_iff.mp hstep
      obtain ⟨timer, htimer, -⟩ := Timers.fire_eq hfire
      rw [(h.released hdisposed).1] at htimer
      cases htimer
    · obtain ⟨-, rfl⟩ := parentAbort_eq.mp hstep
      unfold DeadlineState.parentAborts
      dsimp only
      rw [(h.released hdisposed).2]
      exact ⟨rfl, rfl⟩

theorem liveDeadlines {timeoutMs graceMs : ℚ} (hgrace : 0 ≤ graceMs)
    (h : DeadlinesSound timeoutMs graceMs s) (hlive : s.disposed = false) :
    LiveDeadlines timeoutMs graceMs s where
  drained := h.sound.drained hlive
  deadline hopen := by
    rcases h.stops with hdisposed | hstopped | hpending
    · rw [hlive] at hdisposed
      cases hdisposed
    · rw [hopen] at hstopped
      cases hstopped
    · exact ⟨hpending.now_le, hpending⟩
  draining hopen := by
    rcases h.drains with hdisposed | hdrained | hpending
    · rw [hlive] at hdisposed
      cases hdisposed
    · rw [hopen] at hdrained
      cases hdrained
    · exact ⟨hpending.now_le, hpending⟩
  atOnce hnone reason s' hstep := by
    obtain rfl := Option.some.inj hstep
    refine ⟨?_, drain_rest.1⟩
    rcases @drain_cases ρ s reason with ⟨-, heq⟩ | ⟨hsome, -, -⟩ | ⟨hsome, -, -⟩
    · rw [heq]
      exact abortHard_hard
    · exact absurd (h.grace.trans hnone) hsome
    · exact absurd (h.grace.trans hnone) hsome
  afterGrace reason s₁ labels s' hstep hrun := by
    obtain rfl := Option.some.inj hstep
    refine ⟨drain_rest.1, fun hstill hopen => ?_⟩
    have hdrained : (s.drain reason).StopsBy (s.timers.now + graceMs) := by
      have hstops := @GraceArmed.drain_stopsBy ρ s reason h.armed (h.grace.symm ▸ hgrace)
      rwa [h.grace] at hstops
    have hstops : s'.StopsBy (s.timers.now + graceMs) :=
      run_invariant (fun _ _ _ hs hstep => hs.step hstep) hdrained hrun
    rcases hstops with hdisposed | hstopped | hpending
    · rw [hstill] at hdisposed
      cases hdisposed
    · rw [hopen] at hstopped
      cases hstopped
    · exact ⟨hpending.now_le, hpending⟩
  parent reason s' hstep := by
    obtain ⟨hparent, rfl⟩ := parentAbort_eq.mp hstep
    have hlistening := h.sound.followsParent hlive hparent
    have hsound := @Sound.parentAborts ρ s reason h.sound
    have hstopped : (s.parentAborts reason).hard.isSome := by
      unfold DeadlineState.parentAborts
      dsimp only
      rw [if_pos hlistening]
      exact abortHard_hard
    refine ⟨hstopped, hsound.drained ?_ hstopped⟩
    unfold DeadlineState.parentAborts
    dsimp only
    rw [if_pos hlistening, abortHard_disposed]
    exact hlive

/-- **The deadlines of a turn**, over every run of its machine. -/
theorem turnDeadlines_kept (parent : Option (Option ρ)) (timeoutMs : ℚ) {graceMs : ℚ}
    (hgrace : 0 ≤ graceMs) {labels : List (DeadlineLabel ρ)}
    (hrun : run deadlineStep (.create parent timeoutMs graceMs) labels = some s) :
    (s.disposed = false → LiveDeadlines timeoutMs graceMs s) ∧
      (s.disposed = true → DisposedDeadlines s) := by
  have h := deadlinesSound_run hgrace
    ⟨create_sound parent timeoutMs graceMs, create_graceMs parent timeoutMs graceMs,
      create_graceArmed parent timeoutMs graceMs, create_stopsBy parent timeoutMs graceMs,
      create_drainsBy parent timeoutMs hgrace⟩ hrun
  exact ⟨liveDeadlines hgrace h, disposedDeadlines h.sound⟩

end Runs

namespace Sample

/-- A turn of two seconds with half a second of grace is drained after one, and stops at a half past. -/
def drainedEarly : List (DeadlineLabel Unit) :=
  [.elapse 1000, .drain (), .elapse 1500, .fire 1, .fire 2]

end Sample

theorem turnDeadlines_kept_drainedEarly :
    ∃ s, run deadlineStep (.create none 2000 500) Sample.drainedEarly = some s ∧
      s.hard.isSome = true ∧ LiveDeadlines 2000 500 s := by
  have hends : (run deadlineStep (.create none 2000 500) Sample.drainedEarly).map
      (fun s => (s.disposed, s.hard.isSome)) = some (false, true) := by
    decide +kernel
  obtain ⟨s, hrun, heq⟩ := Option.map_eq_some_iff.mp hends
  obtain ⟨hlive, hstopped⟩ := Prod.mk.inj heq
  exact ⟨s, hrun, hstopped, (turnDeadlines_kept none 2000 (by decide +kernel) hrun).1 hlive⟩

end SharedOS.Runtime
