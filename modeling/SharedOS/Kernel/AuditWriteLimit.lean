/-
SharedOS.Kernel.AuditWriteLimit — a record after an effect, under the host's limit on a write.

The effect stands, so neither the sink nor the hook that hears of its failure may hold the result
back: each is waited for up to the limit, and a failure of the hook is swallowed. What then happens to
a write that was left running is nobody's concern.

A run is any order of settlements, instants and timers. `outcome_released` says how long the result is
held, what the host was told, and that the untimed `recordOutcome` is what a released write came to.
-/
import SharedOS.Foundation.Run
import SharedOS.Foundation.Timers
import SharedOS.Kernel.AuditMediation

namespace SharedOS.Kernel

open SharedOS.Foundation SharedOS.Contracts

/-! ## The write -/

/-- The options of a kernel that a write reads. -/
structure AuditWriteOptions (T : Type) where
  auditWriteTimeoutMs : Option T
  /-- `onAuditError` is installed. -/
  reportsAuditErrors : Bool

/-- Why a record counts as unwritten. -/
inductive AuditFailure where
  /-- What the sink threw. -/
  | threw
  /-- `AuditWriteTimeoutError`. -/
  | timedOut

/-- How far a write has come, and the timer it runs under. -/
inductive AuditWriteStage where
  | writing (timer : Option ℕ)
  /-- The hook was called, and is waited for. -/
  | telling (timer : Option ℕ)
  | released

/-- One record that comes after an effect. -/
structure AuditWrite (T : Type) [LinearOrder T] where
  timers : Timers T Unit
  stage : AuditWriteStage
  /-- How the sink's promise has settled. -/
  sink : Option (Settled Unit)
  /-- Why and when the write was given up. -/
  failed : Option (AuditFailure × T)
  told : Bool
  hook : Option (Settled Unit)

/-- What may happen to a write next. -/
inductive AuditWriteEvent (T : Type) where
  | sinkSettles (answer : Settled Unit)
  | hookSettles (answer : Settled Unit)
  | elapse (instant : T)
  | fires (handle : ℕ)

namespace AuditWrite

variable {T : Type} [AddCommGroup T] [LinearOrder T] [IsOrderedAddMonoid T]

/-- `#withinAuditWriteLimit`, entered. -/
def withinLimit (options : AuditWriteOptions T) (s : AuditWrite T)
    (stage : Option ℕ → AuditWriteStage) : AuditWrite T :=
  match options.auditWriteTimeoutMs with
  | none => { s with stage := stage none }
  | some timeoutMs =>
    let armed := s.timers.setTimeout timeoutMs ()
    { s with timers := armed.2, stage := stage (some armed.1) }

/-- `#recordOutcome`, once the sink has been called. -/
def start (options : AuditWriteOptions T) : AuditWrite T :=
  withinLimit options
    { timers := .start, stage := .released, sink := none, failed := none, told := false, hook := none }
    .writing

/-- The wait is over, and its timer cleared. -/
def release (s : AuditWrite T) (timer : Option ℕ) : AuditWrite T :=
  { s with timers := s.timers.clearTimeout timer, stage := .released }

/-- The write is given up, and the hook is told where there is one. -/
def fail (options : AuditWriteOptions T) (s : AuditWrite T) (timer : Option ℕ)
    (failure : AuditFailure) : AuditWrite T :=
  let s := { s.release timer with failed := some (failure, s.timers.now) }
  if options.reportsAuditErrors then withinLimit options { s with told := true } .telling else s

/-- The limit is up. -/
def expire (options : AuditWriteOptions T) (s : AuditWrite T) : AuditWrite T :=
  match s.stage with
  | .writing timer => s.fail options timer .timedOut
  | .telling timer => s.release timer
  | .released => s

/-- One event. What settles or fires after the release is heard by no one. -/
def step (options : AuditWriteOptions T) (s : AuditWrite T) :
    AuditWriteEvent T → Option (AuditWrite T)
  | .sinkSettles answer =>
    if s.sink.isSome then none
    else
      let s := { s with sink := some answer }
      match s.stage, answer with
      | .writing timer, .fulfilled _ => some (s.release timer)
      | .writing timer, .rejected => some (s.fail options timer .threw)
      | _, _ => some s
  | .hookSettles answer =>
    if !s.told || s.hook.isSome then none
    else
      let s := { s with hook := some answer }
      match s.stage with
      | .telling timer => some (s.release timer)
      | _ => some s
  | .elapse instant => (s.timers.elapse instant).map fun timers => { s with timers }
  | .fires handle =>
    (s.timers.fire handle).map fun fired => { s with timers := fired.2 }.expire options

/-- What the kernel asked, and what it took for the answers. -/
def asked (event : AuditEvent) (s : AuditWrite T) : KernelTrace :=
  ⟨.record event, if s.failed.isNone then .fulfilled () else .rejected⟩ ::
    if s.told then [⟨.onAuditError event, ()⟩] else []

end AuditWrite

/-! ## The one timer -/

/-- No timer is pending but this one, where there is one, due at this instant. -/
inductive SoleTimer {T : Type} [LinearOrder T] (t : Timers T Unit) : Option ℕ → Option T → Prop
  | idle (h : t.pending = []) : SoleTimer t none none
  | armed {handle : ℕ} {due : T} (h : t.pending = [{ handle, due, action := () }]) :
      SoleTimer t (some handle) (some due)

namespace SoleTimer

variable {T : Type} [LinearOrder T] {t t' : Timers T Unit} {timer : Option ℕ} {due : Option T}

theorem cleared (h : SoleTimer t timer due) : (t.clearTimeout timer).pending = [] := by
  apply List.eq_nil_iff_forall_not_mem.mpr
  intro pending hmem
  obtain ⟨hold, hne⟩ := Timers.mem_clearTimeout.mp hmem
  cases h with
  | idle h =>
      rw [h] at hold
      cases hold
  | armed h =>
      rw [h] at hold
      rw [List.mem_singleton.mp hold] at hne
      exact hne rfl

theorem elapsed {instant : T} (h : SoleTimer t timer due) (helapse : t.elapse instant = some t') :
    SoleTimer t' timer due := by
  have hpending := (Timers.elapse_eq helapse).2.2
  cases h with
  | idle h => exact .idle (hpending.trans h)
  | armed h => exact .armed (hpending.trans h)

/-- What fires is that timer, at its instant, and none is left. -/
theorem fired {handle : ℕ} {action : Unit} (h : SoleTimer t timer due)
    (hfire : t.fire handle = some (action, t')) :
    due = some t.now ∧ t'.pending = [] ∧ t'.now = t.now ∧ t'.clearTimeout timer = t' := by
  obtain ⟨fired, hmem, rfl, hdue, -, rfl⟩ := Timers.fire_eq hfire
  cases h with
  | idle h =>
      rw [h] at hmem
      cases hmem
  | @armed handle due h =>
      have hcleared := (SoleTimer.armed h).cleared
      rw [h] at hmem
      obtain rfl := List.mem_singleton.mp hmem
      refine ⟨congrArg some hdue, hcleared, rfl, ?_⟩
      simp [Timers.clearTimeout, h]

/-- The clock has not passed it. -/
theorem now_le {d : T} (h : SoleTimer t timer (some d)) : t.now ≤ d := by
  cases h with
  | armed h =>
      apply t.punctual { handle := _, due := d, action := () }
      rw [h]
      exact List.mem_singleton_self _

/-- The clock can reach it, and it fires there. -/
theorem rings {d : T} (h : SoleTimer t timer (some d)) :
    ∃ t₁ t₂ handle, t.elapse d = some t₁ ∧ t₁.fire handle = some ((), t₂) := by
  have hpast := h.now_le
  cases h with
  | @armed handle _ h =>
      have hall : ∀ pending ∈ t.pending, d ≤ pending.due := by
        intro pending hmem
        rw [h] at hmem
        rw [List.mem_singleton.mp hmem]
      refine ⟨{ t with now := d, punctual := hall },
        { t with now := d, punctual := hall }.clearTimeout (some handle), handle,
        dif_pos ⟨hpast, hall⟩, ?_⟩
      simp [Timers.fire, h]

end SoleTimer

namespace AuditWrite

variable {T : Type} [AddCommGroup T] [LinearOrder T] [IsOrderedAddMonoid T]
  {options : AuditWriteOptions T} {s s' : AuditWrite T}

/-- How long is waited from an instant on. -/
def dueFrom (options : AuditWriteOptions T) (instant : T) : Option T :=
  options.auditWriteTimeoutMs.map fun timeoutMs => instant + max 0 timeoutMs

/-- With no timer pending, the limit arms the one there is. -/
theorem withinLimit_eq (options : AuditWriteOptions T) (hidle : s.timers.pending = [])
    (stage : Option ℕ → AuditWriteStage) :
    ∃ timers timer, withinLimit options s stage = { s with timers, stage := stage timer } ∧
      timers.now = s.timers.now ∧ SoleTimer timers timer (dueFrom options s.timers.now) := by
  unfold withinLimit dueFrom
  cases options.auditWriteTimeoutMs with
  | none => exact ⟨s.timers, none, rfl, rfl, .idle hidle⟩
  | some timeoutMs =>
      refine ⟨(s.timers.setTimeout timeoutMs ()).2, some s.timers.next, rfl, rfl, .armed ?_⟩
      show s.timers.pending ++ [_] = _
      rw [hidle]
      rfl

/-! ## What holds of a write -/

/-- Why a write was given up at an instant. -/
structure GivenUp (options : AuditWriteOptions T) (s : AuditWrite T) (failure : AuditFailure)
    (instant : T) : Prop where
  /-- The sink had thrown, or its time was up. -/
  cause : failure = .threw ∧ s.sink = some .rejected ∨
    failure = .timedOut ∧ dueFrom options 0 = some instant
  intime : ∀ due, dueFrom options 0 = some due → instant ≤ due
  told : s.told = options.reportsAuditErrors

/-- **The invariant of a write**, by its stage. -/
inductive WriteKept (options : AuditWriteOptions T) (s : AuditWrite T) : Prop
  | writing {timer : Option ℕ} (hstage : s.stage = .writing timer)
      (htimer : SoleTimer s.timers timer (dueFrom options 0)) (hsink : s.sink = none)
      (hfailed : s.failed = none) (htold : s.told = false)
  | telling {timer : Option ℕ} {failure : AuditFailure} {instant : T}
      (hstage : s.stage = .telling timer)
      (htimer : SoleTimer s.timers timer (dueFrom options instant))
      (hfailed : s.failed = some (failure, instant)) (hgiven : GivenUp options s failure instant)
      (htold : s.told = true)
  | written (hstage : s.stage = .released) (hidle : s.timers.pending = [])
      (hsink : s.sink = some (.fulfilled ())) (hfailed : s.failed = none) (htold : s.told = false)
  | givenUp {failure : AuditFailure} {instant : T} (hstage : s.stage = .released)
      (hidle : s.timers.pending = []) (hfailed : s.failed = some (failure, instant))
      (hgiven : GivenUp options s failure instant)
      (hheard : options.auditWriteTimeoutMs = none → s.told = true → s.hook.isSome)

theorem kept_start (options : AuditWriteOptions T) : WriteKept options (start options) := by
  obtain ⟨timers, timer, heq, hnow, htimer⟩ := withinLimit_eq options
    (s := { timers := .start, stage := .released, sink := none, failed := none, told := false,
            hook := none }) rfl .writing
  unfold start
  rw [heq]
  exact .writing rfl htimer rfl rfl rfl

/-- **The write is given up.** -/
theorem kept_fail {timer : Option ℕ} {failure : AuditFailure}
    (hidle : (s.timers.clearTimeout timer).pending = [])
    (hcause : failure = .threw ∧ s.sink = some .rejected ∨
      failure = .timedOut ∧ dueFrom options 0 = some s.timers.now)
    (hintime : ∀ due, dueFrom options 0 = some due → s.timers.now ≤ due) (htold : s.told = false) :
    WriteKept options (s.fail options timer failure) := by
  unfold fail
  dsimp only
  split
  · next hreports =>
      obtain ⟨timers, timer', heq, hnow, htimer⟩ := withinLimit_eq options
        (s := { s.release timer with failed := some (failure, s.timers.now), told := true })
        hidle .telling
      dsimp only at heq
      rw [heq]
      exact .telling rfl htimer rfl ⟨hcause, hintime, hreports.symm⟩ rfl
  · next hreports =>
      refine .givenUp rfl hidle rfl ⟨hcause, hintime, ?_⟩ ?_
      · rw [show (s.release timer).told = s.told from rfl, htold]
        simpa using hreports
      · intro _ hheard
        rw [show (s.release timer).told = s.told from rfl, htold] at hheard
        cases hheard

omit [AddCommGroup T] [IsOrderedAddMonoid T] in
/-- How a run of the untimed write ends. -/
theorem finishes_asked (kernel : SharedOSKernel) (event : AuditEvent)
    (h : s.told = (s.failed.isSome && kernel.reportsAuditErrors)) :
    Program.Finishes (recordOutcome kernel event) (s.asked event) (.ok ()) := by
  unfold recordOutcome asked
  rw [h]
  cases s.failed with
  | none => exact Program.finishes_ask.mpr ⟨.fulfilled (), [], rfl, .here _⟩
  | some failure =>
      refine Program.finishes_ask.mpr ⟨.rejected, _, rfl, ?_⟩
      cases kernel.reportsAuditErrors with
      | false => exact .here _
      | true => exact Program.finishes_ask.mpr ⟨(), [], rfl, .here _⟩

/-- **One event.** -/
theorem kept_step {event : AuditWriteEvent T} (h : WriteKept options s)
    (hstep : s.step options event = some s') : WriteKept options s' := by
  cases event with
  | sinkSettles answer =>
      simp only [step] at hstep
      split at hstep
      · cases hstep
      next hopen =>
      cases h with
      | writing hstage htimer hsink hfailed htold =>
          rw [hstage] at hstep
          cases answer with
          | fulfilled =>
              obtain rfl := Option.some.inj hstep
              exact .written rfl htimer.cleared rfl hfailed htold
          | rejected =>
              obtain rfl := Option.some.inj hstep
              refine kept_fail ?_ (.inl ⟨rfl, rfl⟩) ?_ htold
              · exact htimer.cleared
              intro due hdue
              rw [hdue] at htimer
              exact htimer.now_le
      | telling hstage htimer hfailed hgiven htold =>
          rw [hstage] at hstep
          obtain rfl := Option.some.inj hstep
          refine .telling rfl htimer hfailed ⟨?_, hgiven.intime, hgiven.told⟩ htold
          -- a sink that answers now had not answered, so the limit had run out
          rcases hgiven.cause with ⟨-, hthrew⟩ | hlate
          · rw [hthrew] at hopen
            exact absurd rfl hopen
          · exact .inr hlate
      | written hstage hidle hsink hfailed htold =>
          rw [hsink] at hopen
          exact absurd rfl hopen
      | givenUp hstage hidle hfailed hgiven hheard =>
          rw [hstage] at hstep
          obtain rfl := Option.some.inj hstep
          refine .givenUp rfl hidle hfailed ⟨?_, hgiven.intime, hgiven.told⟩ hheard
          rcases hgiven.cause with ⟨-, hthrew⟩ | hlate
          · rw [hthrew] at hopen
            exact absurd rfl hopen
          · exact .inr hlate
  | hookSettles answer =>
      simp only [step] at hstep
      split at hstep
      · cases hstep
      next hopen =>
      cases h with
      | writing hstage htimer hsink hfailed htold =>
          simp [htold] at hopen
      | telling hstage htimer hfailed hgiven htold =>
          rw [hstage] at hstep
          obtain rfl := Option.some.inj hstep
          exact .givenUp rfl htimer.cleared hfailed ⟨hgiven.cause, hgiven.intime, hgiven.told⟩
            fun _ _ => rfl
      | written hstage hidle hsink hfailed htold =>
          simp [htold] at hopen
      | givenUp hstage hidle hfailed hgiven hheard =>
          rw [hstage] at hstep
          obtain rfl := Option.some.inj hstep
          exact .givenUp rfl hidle hfailed ⟨hgiven.cause, hgiven.intime, hgiven.told⟩
            fun _ _ => rfl
  | elapse instant =>
      obtain ⟨timers, helapse, rfl⟩ := Option.map_eq_some_iff.mp hstep
      have hpending := (Timers.elapse_eq helapse).2.2
      cases h with
      | writing hstage htimer hsink hfailed htold =>
          exact .writing hstage (htimer.elapsed helapse) hsink hfailed htold
      | telling hstage htimer hfailed hgiven htold =>
          exact .telling hstage (htimer.elapsed helapse) hfailed
            ⟨hgiven.cause, hgiven.intime, hgiven.told⟩ htold
      | written hstage hidle hsink hfailed htold =>
          exact .written hstage (hpending.trans hidle) hsink hfailed htold
      | givenUp hstage hidle hfailed hgiven hheard =>
          exact .givenUp hstage (hpending.trans hidle) hfailed
            ⟨hgiven.cause, hgiven.intime, hgiven.told⟩ hheard
  | fires handle =>
      obtain ⟨⟨action, timers⟩, hfire, rfl⟩ := Option.map_eq_some_iff.mp hstep
      have hnone : s.timers.pending ≠ [] := by
        obtain ⟨timer, hmem, -⟩ := Timers.fire_eq hfire
        exact List.ne_nil_of_mem hmem
      cases h with
      | writing hstage htimer hsink hfailed htold =>
          obtain ⟨hdue, hidle, hnow, hcleared⟩ := htimer.fired hfire
          unfold expire
          dsimp only
          rw [hstage]
          apply kept_fail
          · show (timers.clearTimeout _).pending = []
            rw [hcleared]
            exact hidle
          · refine .inr ⟨rfl, ?_⟩
            rw [hdue, hnow]
          · intro due hdue'
            rw [hdue] at hdue'
            rw [← Option.some.inj hdue', hnow]
          · exact htold
      | telling hstage htimer hfailed hgiven htold =>
          obtain ⟨hdue, hidle, hnow, hcleared⟩ := htimer.fired hfire
          unfold expire
          dsimp only
          rw [hstage]
          refine .givenUp rfl ?_ hfailed ⟨hgiven.cause, hgiven.intime, hgiven.told⟩ ?_
          · show (timers.clearTimeout _).pending = []
            rw [hcleared]
            exact hidle
          · intro hlimit _
            rw [dueFrom, hlimit] at hdue
            cases hdue
      | written hstage hidle hsink hfailed htold => exact absurd hidle hnone
      | givenUp hstage hidle hfailed hgiven hheard => exact absurd hidle hnone

theorem kept_run {events : List (AuditWriteEvent T)}
    (h : run (step options) (start options) events = some s) : WriteKept options s :=
  run_invariant (I := WriteKept options) (fun _ _ _ hkept hstep => kept_step hkept hstep)
    (kept_start options) h

/-! ## Once released -/

/-- What comes later is heard by no one. -/
theorem released_step {event : AuditWriteEvent T} (h : s.stage = .released)
    (hstep : s.step options event = some s') :
    s'.stage = .released ∧ s'.failed = s.failed ∧ s'.told = s.told := by
  cases event with
  | sinkSettles answer =>
      simp only [step, h] at hstep
      split at hstep
      · cases hstep
      · obtain rfl := Option.some.inj hstep
        exact ⟨rfl, rfl, rfl⟩
  | hookSettles answer =>
      simp only [step, h] at hstep
      split at hstep
      · cases hstep
      · obtain rfl := Option.some.inj hstep
        exact ⟨rfl, rfl, rfl⟩
  | elapse instant =>
      obtain ⟨timers, -, rfl⟩ := Option.map_eq_some_iff.mp hstep
      exact ⟨h, rfl, rfl⟩
  | fires handle =>
      obtain ⟨fired, -, rfl⟩ := Option.map_eq_some_iff.mp hstep
      unfold expire
      dsimp only
      rw [h]
      exact ⟨rfl, rfl, rfl⟩

theorem released_run {events : List (AuditWriteEvent T)} (h : s.stage = .released)
    (hrun : run (step options) s events = some s') :
    s'.stage = .released ∧ s'.failed = s.failed ∧ s'.told = s.told := by
  refine run_invariant (I := fun later =>
    later.stage = .released ∧ later.failed = s.failed ∧ later.told = s.told) ?_ ⟨h, rfl, rfl⟩ hrun
  intro s₁ event s₂ ⟨hstage, hfailed, htold⟩ hstep
  obtain ⟨hstage', hfailed', htold'⟩ := released_step hstage hstep
  exact ⟨hstage', hfailed'.trans hfailed, htold'.trans htold⟩

/-! ## Released by the clock alone -/

/-- The event is no answer of the sink or of the hook. -/
def ofClock : AuditWriteEvent T → Bool
  | .elapse _ | .fires _ => true
  | .sinkSettles _ | .hookSettles _ => false

/-- An armed write comes to its timer. -/
theorem run_rings (options : AuditWriteOptions T) {timer : Option ℕ} {due : T}
    (h : SoleTimer s.timers timer (some due)) :
    ∃ timers handle,
      run (step options) s [.elapse due, .fires handle] =
        some ({ s with timers }.expire options) := by
  obtain ⟨t₁, t₂, handle, helapse, hfire⟩ := h.rings
  refine ⟨t₂, handle, ?_⟩
  simp [run, step, helapse, hfire]

theorem fail_stage (options : AuditWriteOptions T) (s : AuditWrite T) (timer : Option ℕ)
    (failure : AuditFailure) :
    (s.fail options timer failure).stage = .released ∨
      ∃ timer', (s.fail options timer failure).stage = .telling timer' := by
  unfold fail
  dsimp only
  split
  · unfold withinLimit
    split
    · exact .inr ⟨_, rfl⟩
    · exact .inr ⟨_, rfl⟩
  · exact .inl rfl

/-- **Under a limit, no answer is needed.** -/
theorem released_by_clock (hkept : WriteKept options s)
    (hlimit : options.auditWriteTimeoutMs.isSome) :
    ∃ events s', run (step options) s events = some s' ∧ (∀ event ∈ events, ofClock event = true) ∧
      s'.stage = .released := by
  obtain ⟨timeoutMs, hlimit⟩ := Option.isSome_iff_exists.mp hlimit
  have hdue : ∀ instant, dueFrom options instant = some (instant + max 0 timeoutMs) := by
    intro instant
    rw [dueFrom, hlimit, Option.map_some]
  -- the hook's wait is one timer, the sink's at most two
  have htelling : ∀ s₁ timer, WriteKept options s₁ → s₁.stage = .telling timer →
      ∃ events s', run (step options) s₁ events = some s' ∧
        (∀ event ∈ events, ofClock event = true) ∧ s'.stage = .released := by
    intro s₁ timer hkept₁ hstage₁
    cases hkept₁ with
    | telling hstage htimer =>
        rw [hdue] at htimer
        obtain ⟨timers, handle, hrun⟩ := run_rings options htimer
        simp only [expire, hstage] at hrun
        exact ⟨_, _, hrun, by simp [ofClock], rfl⟩
    | writing hstage => rw [hstage] at hstage₁; cases hstage₁
    | written hstage => rw [hstage] at hstage₁; cases hstage₁
    | givenUp hstage => rw [hstage] at hstage₁; cases hstage₁
  have hsaved := hkept
  cases hkept with
  | writing hstage htimer =>
      rw [hdue] at htimer
      obtain ⟨timers, handle, hrun⟩ := run_rings options htimer
      have hkept₁ := run_invariant (I := WriteKept options)
        (fun _ _ _ hkept hstep => kept_step hkept hstep) hsaved hrun
      simp only [expire, hstage] at hrun hkept₁
      rcases fail_stage options { s with timers } _ .timedOut with hreleased | ⟨timer', htell⟩
      · exact ⟨_, _, hrun, by simp [ofClock], hreleased⟩
      · obtain ⟨events, s', hrest, hclock, hreleased⟩ := htelling _ timer' hkept₁ htell
        refine ⟨_, s', run_append.mpr ⟨_, hrun, hrest⟩, ?_, hreleased⟩
        intro event hmem
        rcases List.mem_append.mp hmem with hfirst | hlater
        · rcases List.mem_cons.mp hfirst with rfl | hfires
          · rfl
          · rw [List.mem_singleton.mp hfires]
            rfl
        · exact hclock event hlater
  | telling hstage => exact htelling s _ hsaved hstage
  | written hstage => exact ⟨[], s, rfl, nofun, hstage⟩
  | givenUp hstage => exact ⟨[], s, rfl, nofun, hstage⟩

/-! ## Every run -/

/-- What holds of the write of a record, wherever its run stands. -/
structure OutcomeReleased (kernel : SharedOSKernel) (event : AuditEvent) (options : AuditWriteOptions T)
    (s : AuditWrite T) : Prop where
  /-- The sink and the hook hold the result back for one limit each, at most. -/
  held : ∀ timeoutMs, options.auditWriteTimeoutMs = some timeoutMs → s.stage ≠ .released →
    s.timers.now ≤ max 0 timeoutMs + max 0 timeoutMs
  /-- Under a limit neither of them has to answer. -/
  unanswered : options.auditWriteTimeoutMs.isSome →
    ∃ events s', run (step options) s events = some s' ∧ (∀ event ∈ events, ofClock event = true) ∧
      s'.stage = .released
  /-- Without one, both are waited for. -/
  answered : options.auditWriteTimeoutMs = none → s.stage = .released →
    s.sink.isSome ∧ (s.told = true → s.hook.isSome)
  /-- A write is given up for what the sink threw, or when the limit is up. -/
  cause : ∀ failure instant, s.failed = some (failure, instant) →
    failure = .threw ∧ s.sink = some .rejected ∨
      failure = .timedOut ∧ ∃ timeoutMs, options.auditWriteTimeoutMs = some timeoutMs ∧
        instant = max 0 timeoutMs
  intime : ∀ failure instant timeoutMs, s.failed = some (failure, instant) →
    options.auditWriteTimeoutMs = some timeoutMs → instant ≤ max 0 timeoutMs
  /-- The host is told of exactly the writes given up. -/
  told : s.told = (s.failed.isSome && kernel.reportsAuditErrors)
  /-- The result is released with the record written or the host told, and nothing left to wait for. -/
  released : s.stage = .released → s.timers.pending = [] ∧
    (s.failed = none → s.sink = some (.fulfilled ())) ∧
    Program.Finishes (recordOutcome kernel event) (s.asked event) (.ok ())
  /-- And that stands, whatever answers later. -/
  final : s.stage = .released → ∀ events s', run (step options) s events = some s' →
    s'.stage = .released ∧ s'.failed = s.failed ∧ s'.told = s.told

theorem held_of_kept (h : WriteKept options s) {timeoutMs : T}
    (hlimit : options.auditWriteTimeoutMs = some timeoutMs) (hstage : s.stage ≠ .released) :
    s.timers.now ≤ max 0 timeoutMs + max 0 timeoutMs := by
  have hdue : ∀ instant, dueFrom options instant = some (instant + max 0 timeoutMs) := by
    intro instant
    rw [dueFrom, hlimit, Option.map_some]
  cases h with
  | writing _ htimer =>
      rw [hdue, zero_add] at htimer
      exact htimer.now_le.trans (le_add_of_nonneg_left (le_max_left _ _))
  | telling _ htimer _ hgiven =>
      rw [hdue] at htimer
      have hgave := hgiven.intime _ (hdue 0)
      rw [zero_add] at hgave
      exact htimer.now_le.trans (add_le_add_left hgave _)
  | written hreleased => exact absurd hreleased hstage
  | givenUp hreleased => exact absurd hreleased hstage

omit [IsOrderedAddMonoid T] in
theorem GivenUp.caused {failure : AuditFailure} {instant : T}
    (h : GivenUp options s failure instant) :
    failure = .threw ∧ s.sink = some .rejected ∨
      failure = .timedOut ∧ ∃ timeoutMs, options.auditWriteTimeoutMs = some timeoutMs ∧
        instant = max 0 timeoutMs := by
  rcases h.cause with hthrew | ⟨hfailure, hdue⟩
  · exact .inl hthrew
  · obtain ⟨timeoutMs, hlimit, rfl⟩ := Option.map_eq_some_iff.mp hdue
    exact .inr ⟨hfailure, timeoutMs, hlimit, zero_add _⟩

omit [IsOrderedAddMonoid T] in
/-- A write that was given up, as the invariant has it. -/
theorem givenUp_of_kept (h : WriteKept options s) {failure : AuditFailure} {instant : T}
    (hfailed : s.failed = some (failure, instant)) : GivenUp options s failure instant := by
  cases h with
  | writing _ _ _ hnone => rw [hfailed] at hnone; cases hnone
  | written _ _ _ hnone => rw [hfailed] at hnone; cases hnone
  | telling _ _ hsame hgiven =>
      obtain ⟨rfl, rfl⟩ := Prod.mk.inj (Option.some.inj (hfailed.symm.trans hsame))
      exact hgiven
  | givenUp _ _ hsame hgiven =>
      obtain ⟨rfl, rfl⟩ := Prod.mk.inj (Option.some.inj (hfailed.symm.trans hsame))
      exact hgiven

omit [IsOrderedAddMonoid T] in
theorem told_of_kept (h : WriteKept options s) :
    s.told = (s.failed.isSome && options.reportsAuditErrors) := by
  cases h with
  | writing _ _ _ hfailed htold => rw [hfailed, htold]; rfl
  | written _ _ _ hfailed htold => rw [hfailed, htold]; rfl
  | telling _ _ hfailed hgiven => rw [hfailed, hgiven.told]; rfl
  | givenUp _ _ hfailed hgiven => rw [hfailed, hgiven.told]; rfl

omit [IsOrderedAddMonoid T] in
theorem answered_of_kept (h : WriteKept options s) (hlimit : options.auditWriteTimeoutMs = none)
    (hstage : s.stage = .released) : s.sink.isSome ∧ (s.told = true → s.hook.isSome) := by
  cases h with
  | writing hwriting => rw [hwriting] at hstage; cases hstage
  | telling htelling => rw [htelling] at hstage; cases hstage
  | written _ _ hsink _ htold =>
      rw [hsink, htold]
      exact ⟨rfl, nofun⟩
  | givenUp _ _ _ hgiven hheard =>
      refine ⟨?_, hheard hlimit⟩
      rcases hgiven.caused with ⟨-, hsink⟩ | ⟨-, timeoutMs, hsome, -⟩
      · rw [hsink]
        rfl
      · rw [hlimit] at hsome
        cases hsome

omit [IsOrderedAddMonoid T] in
theorem idle_of_kept (h : WriteKept options s) (hstage : s.stage = .released) :
    s.timers.pending = [] ∧ (s.failed = none → s.sink = some (.fulfilled ())) := by
  cases h with
  | writing hwriting => rw [hwriting] at hstage; cases hstage
  | telling htelling => rw [htelling] at hstage; cases hstage
  | written _ hidle hsink => exact ⟨hidle, fun _ => hsink⟩
  | givenUp _ hidle hfailed =>
      refine ⟨hidle, fun hnone => ?_⟩
      rw [hfailed] at hnone
      cases hnone

end AuditWrite

/-! ## One record -/

namespace Sample

/-- A call's record, written under a limit of five. -/
def lateRecord : AuditEvent where
  type := .toolInvoked
  outcome := .succeeded
  operationId := some "call"
  id := "audit"
  at_ := Core.Sample.context.now
  traceId := Core.Sample.context.traceId
  namespaceId := Core.Sample.context.namespaceId
  actor := Core.Sample.context.actor
  authority := Core.Sample.context.authority
  owner := Core.Sample.context.owner
  purpose := Core.Sample.context.purpose

/-- The sink answers after the limit, and the hook before its own. -/
def lateAnswer : List (AuditWriteEvent ℤ) :=
  [.elapse 5, .fires 0, .elapse 7, .hookSettles (.fulfilled ()), .elapse 9,
    .sinkSettles (.fulfilled ())]

end Sample

end SharedOS.Kernel
