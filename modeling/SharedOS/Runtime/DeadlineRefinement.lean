/-
SharedOS.Runtime.DeadlineRefinement — the signals of the envelope are those of the real timers.

The model of the executor keeps four facts about `createTurnDeadlines` (`TurnDeadlines`) and lets a
timer go off whenever one could be armed. The machine of `DeadlineTimers` has the controllers, the
listeners and the timers themselves, over a clock. Here every run of the machine, used as the
executor uses it, is answered step by step by the four facts: what fires is a deadline, a drain or
the end of a grace that they allow, and both signals are the same at every step.

The executor aborts before it disposes, in one `finally`. That is why disposal is no label of its
own here, and it is what a stopped turn that still drains rests on: a machine disposed of without an
abort could be stopped later with nobody draining.

What an error is reduces to what the envelope tells errors apart by: a timer's own errors are `other`.
-/
import SharedOS.Runtime.DeadlineTimers
import SharedOS.Runtime.Executor

namespace SharedOS.Runtime

open SharedOS.Foundation SharedOS.Kernel

/-! ## The two machines -/

/-- A reason, as the envelope tells reasons apart. -/
def AbortReason.thrown : AbortReason Thrown → Thrown
  | .given reason => reason
  | .turnTimeout | .turnDraining => .other

/-- What happens to the deadlines of a turn: the world's doing, and the executor's two calls. -/
inductive EnvelopeLabel where
  | elapse (instant : ℚ)
  | fire (handle : ℕ)
  | parentAbort (reason : Thrown)
  | drain (reason : Thrown)
  /-- The `finally` of a turn: `abort.abort(new Error("turn closed"))`, then `abort.dispose()`. -/
  | close

/-- The events of the machine that one label stands for. -/
def EnvelopeLabel.events : EnvelopeLabel → List (DeadlineLabel Thrown)
  | .elapse instant => [.elapse instant]
  | .fire handle => [.fire handle]
  | .parentAbort reason => [.parentAbort reason]
  | .drain reason => [.drain reason]
  | .close => [.abort .other, .dispose]

/-- One step of the real deadlines, as the executor uses them. -/
def envelopeStep (s : DeadlineState Thrown) (label : EnvelopeLabel) : Option (DeadlineState Thrown) :=
  run deadlineStep s label.events

/-- What the model of the executor does to its signals. -/
inductive SignalMove where
  | stays
  | aborts (reason : Thrown)
  | startsDraining
  | graceExpires
  | drains (reason : Thrown)
  | closes

/-- One move of the model's signals. A drain ahead of the deadline needs a grace. -/
def TurnDeadlines.move (d : TurnDeadlines) : SignalMove → Option TurnDeadlines
  | .stays => some d
  | .aborts reason => some (d.abort reason)
  | .startsDraining => if d.graceMs = 0 then none else some d.startDraining
  | .graceExpires => d.stopAfterGrace.map d.abort
  | .drains reason => some (d.drain reason)
  | .closes => some d.close

/-- The signals of a turn whose host may have aborted already. -/
def TurnDeadlines.createFrom (parent : Option (Option Thrown)) (graceMs : ℕ) : TurnDeadlines :=
  match parent with
  | some (some reason) => (create graceMs).abort reason
  | _ => create graceMs

/-- The move that answers a label. Which timer fires is the machine's to know. -/
inductive EnvelopeLabel.AnsweredBy : EnvelopeLabel → SignalMove → Prop
  | elapse (instant : ℚ) : EnvelopeLabel.AnsweredBy (.elapse instant) .stays
  | deadline (handle : ℕ) : EnvelopeLabel.AnsweredBy (.fire handle) (.aborts .other)
  | drainDeadline (handle : ℕ) : EnvelopeLabel.AnsweredBy (.fire handle) .startsDraining
  | graceExpires (handle : ℕ) : EnvelopeLabel.AnsweredBy (.fire handle) .graceExpires
  | hostAborts (reason : Thrown) : EnvelopeLabel.AnsweredBy (.parentAbort reason) (.aborts reason)
  | drain (reason : Thrown) : EnvelopeLabel.AnsweredBy (.drain reason) (.drains reason)
  | close : EnvelopeLabel.AnsweredBy .close .closes

/-- The label is the world's doing and not the executor's. -/
def EnvelopeLabel.OfWorld : EnvelopeLabel → Prop
  | .elapse _ | .fire _ | .parentAbort _ => True
  | .drain _ | .close => False

/-- A move of the world is a step of the executor, while the turn has its signals. -/
theorem executorStep_of_move [HostPlatform] {turn : Turn} {s : TurnState} {move : SignalMove}
    {d : TurnDeadlines} (hopen : s.phase ≠ .fresh ∧ s.phase ≠ .closed)
    (hmove : s.deadlines.move move = some d)
    (hworld : (∃ reason, move = .aborts reason) ∨ move = .startsDraining ∨ move = .graceExpires) :
    ∃ label, executorStep turn s label = some { s with deadlines := d } := by
  have hsignalled : ∀ d', s.signalled d' = some { s with deadlines := d' } := fun d' =>
    if_neg (not_or.mpr hopen)
  rcases hworld with ⟨reason, rfl⟩ | rfl | rfl
  · obtain rfl := Option.some.inj hmove
    exact ⟨.hostAborts reason, hsignalled _⟩
  · refine ⟨.drainDeadline, ?_⟩
    change (if s.deadlines.graceMs = 0 then none else some s.deadlines.startDraining) = some d at hmove
    show (if s.deadlines.graceMs = 0 then none else s.signalled s.deadlines.startDraining) = _
    split at hmove
    · cases hmove
    · next hgrace =>
        obtain rfl := Option.some.inj hmove
        rw [if_neg hgrace, hsignalled]
  · obtain ⟨reason, hreason, rfl⟩ := Option.map_eq_some_iff.mp hmove
    refine ⟨.graceExpires, ?_⟩
    show (s.deadlines.stopAfterGrace.bind fun reason => s.signalled (s.deadlines.abort reason)) = _
    rw [hreason]
    exact hsignalled _

/-! ## The relation -/

/-- The signals say the same of a turn. -/
structure SameSignals (s : DeadlineState Thrown) (d : TurnDeadlines) : Prop where
  aborted : d.aborted = s.hard.map AbortReason.thrown
  draining : d.draining = s.soft.isSome
  disposed : d.disposed = s.disposed

/-- What a timer will do, the signals allow. -/
def TurnDeadlines.Allows (d : TurnDeadlines) : TimerAction Thrown → Prop
  | .stopAtDeadline => True
  | .drainBeforeDeadline => d.graceMs ≠ 0
  | .stopAfterGrace reason => d.stopAfterGrace = some reason

/-- The signals show the machine, its timers included. -/
structure Shows (s : DeadlineState Thrown) (d : TurnDeadlines) : Prop where
  signals : SameSignals s d
  graceMs : s.graceMs = d.graceMs
  /-- A turn is disposed of only once it has stopped. -/
  stopped : s.disposed = true → s.hard.isSome
  granted : s.disposed = false → d.stopAfterGrace.isSome = s.stopAfterGrace.isSome
  timers : ∀ timer ∈ s.timers.pending, d.Allows timer.action

/-! ## One lemma for each operation -/

namespace Shows

variable {s : DeadlineState Thrown} {d : TurnDeadlines} {reason : AbortReason Thrown}

theorem aborted_isSome (h : Shows s d) : d.aborted.isSome = s.hard.isSome := by
  rw [h.signals.aborted, Option.isSome_map]

theorem grace_eq_zero (h : Shows s d) : s.graceMs = 0 ↔ d.graceMs = 0 := by
  rw [h.graceMs]
  exact Nat.cast_eq_zero

/-- What the signals allowed, they allow while the grace and its reason are as they were. -/
theorem allowed {d' : TurnDeadlines} (h : Shows s d) (hgrace : d'.graceMs = d.graceMs)
    (hreason : d'.stopAfterGrace = d.stopAfterGrace) :
    ∀ timer ∈ s.timers.pending, d'.Allows timer.action := by
  intro timer htimer
  have hallowed := h.timers timer htimer
  cases haction : timer.action with
  | stopAtDeadline => trivial
  | drainBeforeDeadline =>
      rw [haction] at hallowed
      exact fun hzero => hallowed (hgrace.symm.trans hzero)
  | stopAfterGrace given =>
      rw [haction] at hallowed
      exact hreason.trans hallowed

/-- The timers may change, as long as what they will do is allowed. -/
theorem retimed {s' : DeadlineState Thrown} (h : Shows s d) (hhard : s'.hard = s.hard)
    (hsoft : s'.soft = s.soft) (hdisposed : s'.disposed = s.disposed)
    (hgrace : s'.graceMs = s.graceMs) (hgranted : s'.stopAfterGrace = s.stopAfterGrace)
    (htimers : ∀ timer ∈ s'.timers.pending, d.Allows timer.action) : Shows s' d where
  signals := by
    constructor
    · rw [hhard]
      exact h.signals.aborted
    · rw [hsoft]
      exact h.signals.draining
    · rw [hdisposed]
      exact h.signals.disposed
  graceMs := hgrace.trans h.graceMs
  stopped := by
    rw [hdisposed, hhard]
    exact h.stopped
  granted := by
    rw [hdisposed, hgranted]
    exact h.granted
  timers := htimers

theorem abortSoft (h : Shows s d) : Shows (s.abortSoft reason) d.startDraining where
  signals := ⟨h.signals.aborted, DeadlineState.abortSoft_soft.symm, h.signals.disposed⟩
  graceMs := h.graceMs
  stopped := h.stopped
  granted := h.granted
  timers := h.allowed rfl rfl

/-- The first reason stands on both sides, and whoever hears the stop drains. -/
theorem abortHard (h : Shows s d) (hsound : s.Sound) :
    Shows (s.abortHard reason) (d.abort reason.thrown) := by
  obtain ⟨-, -, -, -, hgrace⟩ := @DeadlineState.abortHard_rest Thrown s reason
  have haborted : (d.abort reason.thrown).aborted = (s.abortHard reason).hard.map AbortReason.thrown := by
    show d.aborted.or (some reason.thrown) = _
    rw [h.signals.aborted, DeadlineState.abortHard_eq_or]
    cases s.hard <;> rfl
  have hdrains : (s.abortHard reason).soft.isSome = true := by
    by_cases hlive : s.disposed = false
    · exact hsound.abortHard_drains hlive
    · have hstopped : d.aborted.isSome := h.aborted_isSome.trans (h.stopped (by simpa using hlive))
      exact DeadlineState.abortHard_soft (h.signals.draining.symm.trans (d.drained hstopped))
  refine ⟨⟨haborted, hdrains.symm, ?_⟩, ?_, fun _ => DeadlineState.abortHard_hard, ?_, ?_⟩
  · rw [DeadlineState.abortHard_disposed]
    exact h.signals.disposed
  · rw [DeadlineState.abortHard_graceMs]
    exact h.graceMs
  · rw [DeadlineState.abortHard_disposed, hgrace]
    exact h.granted
  · rw [DeadlineState.abortHard_timers]
    exact h.allowed rfl rfl

/-- The first drain arms the timer, and its reason is the one that stands. -/
theorem armStopAfterGrace {given : Thrown} (h : Shows s d) (hlive : s.disposed = false) :
    Shows (s.armStopAfterGrace given)
      { d with stopAfterGrace := d.stopAfterGrace.or (some given) } := by
  have hgranted := h.granted hlive
  unfold DeadlineState.armStopAfterGrace
  cases hset : s.stopAfterGrace with
  | some handle =>
      rw [hset] at hgranted
      obtain ⟨first, hfirst⟩ := Option.isSome_iff_exists.mp hgranted
      have hsame : d.stopAfterGrace.or (some given) = d.stopAfterGrace := by
        rw [hfirst]
        rfl
      rw [hsame]
      exact h
  | none =>
      rw [hset] at hgranted
      have hunset : d.stopAfterGrace = none := by simpa using hgranted
      rw [hunset]
      refine ⟨⟨h.signals.aborted, h.signals.draining, h.signals.disposed⟩, h.graceMs, h.stopped,
        fun _ => rfl, fun timer htimer => ?_⟩
      rcases Timers.mem_setTimeout.mp htimer with hold | rfl
      · have hallowed := h.timers timer hold
        cases haction : timer.action with
        | stopAtDeadline => trivial
        | drainBeforeDeadline => rwa [haction] at hallowed
        | stopAfterGrace first =>
            -- none was armed
            rw [haction] at hallowed
            exact absurd (hunset.symm.trans hallowed) nofun
      · rfl

theorem drain {given : Thrown} (h : Shows s d) (hsound : s.Sound) :
    Shows (s.drain given) (d.drain given) := by
  have hsoft : Shows (s.abortSoft .turnDraining) d.startDraining := h.abortSoft
  have hopen : (s.hard.isNone ∧ !s.disposed) ↔ (d.aborted.isNone ∧ !d.disposed) := by
    rw [h.signals.aborted, h.signals.disposed, Option.isNone_map]
  rw [DeadlineState.drain_eq]
  unfold TurnDeadlines.drain
  by_cases hzero : s.graceMs = 0
  · rw [if_pos hzero, if_pos (h.grace_eq_zero.mp hzero)]
    exact hsoft.abortHard hsound.abortSoft
  rw [if_neg hzero, if_neg (mt h.grace_eq_zero.mpr hzero)]
  by_cases hlive : s.hard.isNone ∧ !s.disposed
  · rw [if_pos hlive, if_pos (hopen.mp hlive)]
    have hundisposed : s.disposed = false := by simpa using hlive.2
    exact hsoft.armStopAfterGrace hundisposed
  · rw [if_neg hlive, if_neg (mt hopen.mpr hlive)]
    exact hsoft

theorem dispose (h : Shows s d) (hsound : s.Sound) (hstopped : s.hard.isSome) :
    Shows s.dispose { d with stopAfterGrace := none, disposed := true } where
  signals := ⟨h.signals.aborted, h.signals.draining, rfl⟩
  graceMs := h.graceMs
  stopped _ := hstopped
  granted := nofun
  timers timer htimer := by
    rw [(hsound.dispose.released rfl).1] at htimer
    cases htimer

/-- The executor's own `finally`. -/
theorem close (h : Shows s d) (hsound : s.Sound) :
    Shows (s.abortHard (.given .other)).dispose d.close :=
  (h.abortHard hsound).dispose hsound.abortHard DeadlineState.abortHard_hard

/-- What has fired is pending no longer. -/
theorem timersLeft {timers : Timers ℚ (TimerAction Thrown)} (h : Shows s d)
    (hpending : ∀ timer ∈ timers.pending, timer ∈ s.timers.pending) : Shows { s with timers } d :=
  h.retimed rfl rfl rfl rfl rfl fun timer htimer => h.timers timer (hpending timer htimer)

/-- A parent is heard while it is listened to. A turn that it is too late for has stopped. -/
theorem parentAborts {given : Thrown} (h : Shows s d) (hsound : s.Sound)
    (hparent : s.parent = some none) : Shows (s.parentAborts given) (d.abort given) := by
  unfold DeadlineState.parentAborts
  dsimp only
  by_cases hlive : s.disposed = false
  · have hheard : Shows { s with parent := some (some given), parentListening := false } d :=
      h.retimed rfl rfl rfl rfl rfl h.timers
    rw [if_pos (hsound.followsParent hlive hparent)]
    exact hheard.abortHard hsound.heard
  · have hdisposed : s.disposed = true := by simpa using hlive
    have hstopped : d.aborted.isSome := h.aborted_isSome.trans (h.stopped hdisposed)
    rw [(hsound.released hdisposed).2, TurnDeadlines.abort_eq_self hstopped]
    exact h.retimed rfl rfl rfl rfl rfl h.timers

/-- What fires is allowed, and the move it stands for is made. -/
theorem perform {action : TimerAction Thrown} (h : Shows s d) (hsound : s.Sound)
    (hallowed : d.Allows action) (handle : ℕ) :
    ∃ move d', (EnvelopeLabel.fire handle).AnsweredBy move ∧ d.move move = some d' ∧
      Shows (s.perform action) d' := by
  cases action with
  | stopAtDeadline => exact ⟨.aborts .other, _, .deadline handle, rfl, h.abortHard hsound⟩
  | drainBeforeDeadline =>
      exact ⟨.startsDraining, _, .drainDeadline handle, if_neg hallowed, h.abortSoft⟩
  | stopAfterGrace given =>
      have hmove : d.move .graceExpires = some (d.abort given) :=
        Option.map_eq_some_iff.mpr ⟨given, hallowed, rfl⟩
      exact ⟨.graceExpires, _, .graceExpires handle, hmove, h.abortHard hsound⟩

theorem step {s' : DeadlineState Thrown} {label : EnvelopeLabel} (h : Shows s d) (hsound : s.Sound)
    (hstep : envelopeStep s label = some s') :
    ∃ move d', label.AnsweredBy move ∧ d.move move = some d' ∧ Shows s' d' := by
  cases label with
  | elapse instant =>
      rw [envelopeStep, EnvelopeLabel.events, run_singleton] at hstep
      obtain ⟨timers, helapse, rfl⟩ := Option.map_eq_some_iff.mp hstep
      refine ⟨.stays, d, .elapse instant, rfl, h.timersLeft fun timer htimer => ?_⟩
      rwa [(Timers.elapse_eq helapse).2.2] at htimer
  | fire handle =>
      rw [envelopeStep, EnvelopeLabel.events, run_singleton] at hstep
      obtain ⟨⟨action, timers⟩, hfire, rfl⟩ := Option.map_eq_some_iff.mp hstep
      have hleft := Timers.fire_pending hfire
      obtain ⟨timer, htimer, -, -, rfl, -⟩ := Timers.fire_eq hfire
      exact (h.timersLeft hleft).perform (hsound.timers hleft) (h.timers timer htimer) handle
  | parentAbort reason =>
      rw [envelopeStep, EnvelopeLabel.events, run_singleton] at hstep
      obtain ⟨hparent, rfl⟩ := parentAbort_eq.mp hstep
      exact ⟨.aborts reason, _, .hostAborts reason, rfl, h.parentAborts hsound hparent⟩
  | drain reason =>
      rw [envelopeStep, EnvelopeLabel.events, run_singleton] at hstep
      obtain rfl := Option.some.inj hstep
      exact ⟨.drains reason, _, .drain reason, rfl, h.drain hsound⟩
  | close =>
      obtain rfl := Option.some.inj hstep
      exact ⟨.closes, _, .close, rfl, h.close hsound⟩

/-! ## Creation -/

/-- The soft timer is armed only where there is a grace. -/
theorem armSoftTimeout {timeoutMs : ℚ} (h : Shows s d) : Shows (s.armSoftTimeout timeoutMs) d := by
  unfold DeadlineState.armSoftTimeout
  split
  · next hgrace =>
      refine h.retimed rfl rfl rfl rfl rfl fun timer htimer => ?_
      rcases Timers.mem_setTimeout.mp htimer with hold | rfl
      · exact h.timers timer hold
      · exact mt h.grace_eq_zero.mpr hgrace.1.ne'
  · exact h

theorem create (parent : Option (Option Thrown)) (timeoutMs : ℚ) (graceMs : ℕ) :
    Shows (.create parent timeoutMs graceMs) (.createFrom parent graceMs) := by
  have hallowed : ∀ timer ∈ (DeadlineState.armed parent timeoutMs graceMs).timers.pending,
      (TurnDeadlines.createFrom parent graceMs).Allows timer.action := by
    intro timer htimer
    rw [DeadlineState.armed_timers, List.mem_singleton] at htimer
    rw [htimer]
    trivial
  have harmed : Shows (.armed parent timeoutMs graceMs) (.createFrom parent graceMs) := by
    rcases parent with - | - | reason
    all_goals exact ⟨⟨rfl, rfl, rfl⟩, rfl, nofun, fun _ => rfl, hallowed⟩
  exact harmed.armSoftTimeout

end Shows

/-! ## The executor -/

/-- What the world does to the machine next, the executor's model lets it do: nothing changes there,
or it is one step. -/
theorem executorStep_answers [HostPlatform] {turn : Turn} {t : TurnState}
    {s s' : DeadlineState Thrown} {label : EnvelopeLabel}
    (hopen : t.phase ≠ .fresh ∧ t.phase ≠ .closed) (h : Shows s t.deadlines) (hsound : s.Sound)
    (hworld : label.OfWorld) (hstep : envelopeStep s label = some s') :
    ∃ t', (t' = t ∨ ∃ l, executorStep turn t l = some t') ∧ SameSignals s' t'.deadlines := by
  obtain ⟨move, d, hanswer, hmove, hshows⟩ := h.step hsound hstep
  cases hanswer with
  | elapse instant =>
      obtain rfl := Option.some.inj hmove
      exact ⟨t, .inl rfl, hshows.signals⟩
  | deadline handle =>
      exact ⟨_, .inr (executorStep_of_move hopen hmove (.inl ⟨_, rfl⟩)), hshows.signals⟩
  | drainDeadline handle =>
      exact ⟨_, .inr (executorStep_of_move hopen hmove (.inr (.inl rfl))), hshows.signals⟩
  | graceExpires handle =>
      exact ⟨_, .inr (executorStep_of_move hopen hmove (.inr (.inr rfl))), hshows.signals⟩
  | hostAborts reason =>
      exact ⟨_, .inr (executorStep_of_move hopen hmove (.inl ⟨_, rfl⟩)), hshows.signals⟩
  | drain reason => exact hworld.elim
  | close => exact hworld.elim

/-- The signals are the machine's, and a turn that has them follows whatever the world does next. -/
structure Refined [HostPlatform] (s : DeadlineState Thrown) (d : TurnDeadlines) : Prop where
  signals : SameSignals s d
  world : ∀ turn t label s', t.deadlines = d → t.phase ≠ .fresh ∧ t.phase ≠ .closed →
    label.OfWorld → envelopeStep s label = some s' →
    ∃ t', (t' = t ∨ ∃ l, executorStep turn t l = some t') ∧ SameSignals s' t'.deadlines

/-! ## Whole runs -/

theorem envelopeStep_sound {s s' : DeadlineState Thrown} {label : EnvelopeLabel} (h : s.Sound)
    (hstep : envelopeStep s label = some s') : s'.Sound :=
  run_invariant (fun _ _ _ => deadlineStep_sound) h hstep

/-- **Refinement.** Whatever the controllers, the listeners and the timers of a turn go through, the
signals the executor's model keeps answer it event by event and stay the same as theirs. -/
theorem turnDeadlines_refined [HostPlatform] (parent : Option (Option Thrown)) (timeoutMs : ℚ)
    (graceMs : ℕ) {labels : List EnvelopeLabel} {s : DeadlineState Thrown}
    (hrun : run envelopeStep (.create parent timeoutMs graceMs) labels = some s) :
    ∃ moves d, List.Forall₂ EnvelopeLabel.AnsweredBy labels moves ∧
      run TurnDeadlines.move (.createFrom parent graceMs) moves = some d ∧ Refined s d := by
  have hstep : ∀ s d label s', (s.Sound ∧ Shows s d) → envelopeStep s label = some s' →
      ∃ move d', label.AnsweredBy move ∧ d.move move = some d' ∧ s'.Sound ∧ Shows s' d' := by
    rintro s d label s' ⟨hsound, hshows⟩ hstep
    obtain ⟨move, d', hanswer, hmove, hshows'⟩ := hshows.step hsound hstep
    exact ⟨move, d', hanswer, hmove, envelopeStep_sound hsound hstep, hshows'⟩
  have hcreated := And.intro (DeadlineState.create_sound parent timeoutMs graceMs)
    (Shows.create parent timeoutMs graceMs)
  obtain ⟨moves, d, hanswers, hmoves, hsound, hshows⟩ := run_simulates hstep hcreated hrun
  refine ⟨moves, d, hanswers, hmoves, hshows.signals, ?_⟩
  rintro turn t label s' rfl hopen hworld hstep'
  exact executorStep_answers hopen hshows hsound hworld hstep'

namespace Sample

/-- A second of grace: an outage drains the turn, and the grace runs out before the deadline. -/
def outageDrained : List EnvelopeLabel :=
  [.elapse 500, .drain (.auditUnavailable .none), .elapse 1500, .fire 2, .close]

end Sample

open scoped SharedOS.Foundation.Reference in
theorem turnDeadlines_refined_outageDrained : ∃ s moves d,
    run envelopeStep (.create none 3000 1000) Sample.outageDrained = some s ∧
      List.Forall₂ EnvelopeLabel.AnsweredBy Sample.outageDrained moves ∧
      run TurnDeadlines.move (.createFrom none 1000) moves = some d ∧
      Refined s d ∧ d.aborted = some (.auditUnavailable .none) ∧ d.disposed = true := by
  have hends : (run envelopeStep (.create none 3000 1000) Sample.outageDrained).map
      (fun s => (s.hard.map AbortReason.thrown, s.disposed)) =
        some (some (.auditUnavailable .none), true) := by
    decide +kernel
  obtain ⟨s, hrun, heq⟩ := Option.map_eq_some_iff.mp hends
  obtain ⟨hhard, hdisposed⟩ := Prod.mk.inj heq
  obtain ⟨moves, d, hanswers, hmoves, hrefined⟩ := turnDeadlines_refined none 3000 1000 hrun
  exact ⟨s, moves, d, hrun, hanswers, hmoves, hrefined, hrefined.signals.aborted.trans hhard,
    hrefined.signals.disposed.trans hdisposed⟩

end SharedOS.Runtime
