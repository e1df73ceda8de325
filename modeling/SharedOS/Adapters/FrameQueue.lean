/-
SharedOS.Adapters.FrameQueue — the steps of a run, each taken once and in the order of the frames.

What a session has taken and what it still has queued are together the steps of the frames it has read
(`Accounted`), and a frame is read only once all of these are taken. The calls among them are then
released in that order, each once, until a decision ends the turn.
-/
import SharedOS.Adapters.FrameGuard

namespace SharedOS.Adapters

open SharedOS.Foundation SharedOS.Contracts SharedOS.Mcp SharedOS.Runtime

/-! ## What is read off the log -/

/-- The step the driver took. -/
def HarnessEvent.step? : HarnessEvent → Option HarnessStep
  | .took step => some step
  | _ => none

/-- The steps of a frame that was read. -/
def HarnessEvent.stepsRead (seat : HarnessSeat) : HarnessEvent → List HarnessStep
  | .read brought => seat.stepsOf brought
  | _ => []

/-- The call a decision hands to the loop. -/
def NextAnswer.call? : NextAnswer → Option ToolCall
  | .decided (.toolCall call _) => some call
  | _ => none

/-- The call an answer hands to the loop. -/
def HarnessEvent.call? : HarnessEvent → Option ToolCall
  | .answered answer => answer.call?
  | _ => none

/-- The call a step asks for. -/
def HarnessSeat.callOf (seat : HarnessSeat) : HarnessStep → Option ToolCall
  | .toolCall callId tool arguments => some (seat.toolCall callId tool arguments)
  | _ => none

/-- The steps taken, in order. -/
def takenSteps (log : List HarnessEvent) : List HarnessStep := log.filterMap HarnessEvent.step?

/-- The steps of the frames read, in the order of the frames. -/
def readSteps (seat : HarnessSeat) (log : List HarnessEvent) : List HarnessStep :=
  log.flatMap (HarnessEvent.stepsRead seat)

/-- The calls handed to the loop, in order. -/
def callsReleased (log : List HarnessEvent) : List ToolCall := log.filterMap HarnessEvent.call?

@[simp] theorem takenSteps_append (first second : List HarnessEvent) :
    takenSteps (first ++ second) = takenSteps first ++ takenSteps second := List.filterMap_append

@[simp] theorem takenSteps_took (steps : List HarnessStep) :
    takenSteps (steps.map .took) = steps := by
  induction steps with
  | nil => rfl
  | cons step rest ih => simpa [takenSteps, HarnessEvent.step?] using ih

@[simp] theorem readSteps_append (seat : HarnessSeat) (first second : List HarnessEvent) :
    readSteps seat (first ++ second) = readSteps seat first ++ readSteps seat second :=
  List.flatMap_append

@[simp] theorem releasedCalls_append (first second : List HarnessEvent) :
    callsReleased (first ++ second) = callsReleased first ++ callsReleased second :=
  List.filterMap_append

variable {seat : HarnessSeat}

/-- An answer hands a call over exactly where the loop goes on, and it is the call of its step. -/
theorem answerTo_call {messages : List JsString} {released : ℕ} {step : HarnessStep}
    {answer : NextAnswer} (h : seat.answerTo messages released step = some answer) :
    (answer.goesOn = true → answer.call? = seat.callOf step) ∧
      (answer.goesOn = false → answer.call? = none) := by
  cases step with
  | message text => cases h
  | complete output metadata =>
      cases h
      exact ⟨Bool.noConfusion, fun _ => rfl⟩
  | failed error =>
      cases h
      exact ⟨Bool.noConfusion, fun _ => rfl⟩
  | toolCall callId tool arguments =>
      simp only [HarnessSeat.answerTo] at h
      cases hask : askedToEscalate seat.offered tool (some arguments) with
      | some reason =>
          rw [hask] at h
          cases h
          exact ⟨Bool.noConfusion, fun _ => rfl⟩
      | none =>
          rw [hask] at h
          cases h
          unfold HarnessSeat.release
          cases seat.declareStep.elim (.ok none) fun declare => declare released with
          | error => exact ⟨Bool.noConfusion, fun _ => rfl⟩
          | ok step => exact ⟨fun _ => rfl, Bool.noConfusion⟩

theorem callOf_of_quiet {steps : List HarnessStep} (h : Quiet steps) :
    steps.filterMap seat.callOf = [] := by
  rw [List.filterMap_eq_nil_iff]
  intro step hstep
  cases step with
  | message text => rfl
  | toolCall callId tool arguments => cases h _ hstep
  | complete output metadata => cases h _ hstep
  | failed error => cases h _ hstep

/-! ## The account -/

/-- What was taken and what is queued are the steps of the frames read, and no frame was read while a
step was queued. -/
structure Accounted (seat : HarnessSeat) (s : HarnessSession) : Prop where
  queue : takenSteps s.log ++ s.pending = readSteps seat s.log
  drained : ∀ before read after, s.log = before ++ .read read :: after →
    takenSteps before = readSteps seat before

/-- Every call taken so far was released. -/
def AllReleased (seat : HarnessSeat) (s : HarnessSession) : Prop :=
  callsReleased s.log = (takenSteps s.log).filterMap seat.callOf

/-- The calls taken, once an answer is to be given: the ones released before, then the one the answer
hands over, and beyond these only one the turn ends with. -/
structure Answered (seat : HarnessSeat) (answer : NextAnswer) (s : HarnessSession) : Prop where
  accounted : Accounted seat s
  calls : callsReleased s.log ++ answer.call?.toList <+: (takenSteps s.log).filterMap seat.callOf
  going : answer.goesOn = true →
    callsReleased s.log ++ answer.call?.toList = (takenSteps s.log).filterMap seat.callOf

/-- Where the log grows by events that read nothing, no new read is to be answered for. -/
theorem Accounted.of_log {s s' : HarnessSession} {events : List HarnessEvent} (h : Accounted seat s)
    (hlog : s'.log = s.log ++ events) (hevents : ∀ event ∈ events, ∀ read, event ≠ .read read)
    (hqueue : takenSteps events ++ s'.pending = s.pending) : Accounted seat s' := by
  have hread : readSteps seat events = [] := by
    refine List.flatMap_eq_nil_iff.mpr fun event hevent => ?_
    cases event with
    | read read => exact absurd rfl (hevents _ hevent read)
    | asked => rfl
    | wrote frame => rfl
    | took step => rfl
    | answered answer => rfl
  refine ⟨?_, ?_⟩
  · rw [hlog, takenSteps_append, readSteps_append, hread, List.append_nil, List.append_assoc, hqueue]
    exact h.queue
  · intro before read after heq
    rw [hlog] at heq
    rcases List.append_eq_append_iff.mp heq with ⟨more, rfl, hrest⟩ | ⟨more, hold, hrest⟩
    · cases more with
      | nil => exact absurd rfl (hevents _ (hrest ▸ List.mem_cons_self) read)
      | cons event more =>
          have hin : HarnessEvent.read read ∈ events := by
            rw [hrest]
            simp
          exact absurd rfl (hevents _ hin read)
    · cases more with
      | nil =>
          rw [List.nil_append] at hrest
          exact absurd rfl (hevents _ (hrest ▸ List.mem_cons_self) read)
      | cons event more =>
          obtain ⟨rfl, -⟩ := List.cons.inj hrest
          exact h.drained before read more hold

/-- A read with nothing queued brings its steps into the queue. -/
theorem Accounted.of_read {s s' : HarnessSession} {read : ChannelRead} (h : Accounted seat s)
    (hempty : s.pending = []) (hlog : s'.log = s.log ++ [.read read])
    (hpending : s'.pending = seat.stepsOf read) : Accounted seat s' := by
  have hqueue := h.queue
  rw [hempty, List.append_nil] at hqueue
  refine ⟨?_, ?_⟩
  · rw [hlog, takenSteps_append, readSteps_append, hpending, ← hqueue]
    simp [takenSteps, readSteps, HarnessEvent.step?, HarnessEvent.stepsRead]
  · intro before other after heq
    rw [hlog] at heq
    rcases List.eq_nil_or_concat after with rfl | ⟨rest, last, rfl⟩
    · obtain ⟨rfl, -⟩ := List.append_inj' heq rfl
      exact hqueue
    · rw [List.concat_eq_append, ← List.cons_append, ← List.append_assoc] at heq
      obtain ⟨hold, -⟩ := List.append_inj' heq rfl
      exact h.drained before other rest hold

theorem AllReleased.of_log {s s' : HarnessSession} {events : List HarnessEvent}
    (h : AllReleased seat s) (hlog : s'.log = s.log ++ events) (hcalls : callsReleased events = [])
    (hsteps : takenSteps events = []) : AllReleased seat s' := by
  unfold AllReleased
  rw [hlog, releasedCalls_append, takenSteps_append, hcalls, hsteps, List.append_nil, List.append_nil]
  exact h

theorem took_ne_read (steps : List HarnessStep) :
    ∀ event ∈ steps.map HarnessEvent.took, ∀ read, event ≠ .read read := by
  intro event hevent read
  obtain ⟨step, -, rfl⟩ := List.mem_map.mp hevent
  exact nofun

/-- A drain takes what is queued up to its answer. -/
theorem drainFrom_answered {s : HarnessSession} (h : Accounted seat s) (hcalls : AllReleased seat s) :
    ((s.drainFrom seat s.pending).1 = none →
      Accounted seat (s.drainFrom seat s.pending).2 ∧ AllReleased seat (s.drainFrom seat s.pending).2 ∧
        (s.drainFrom seat s.pending).2.pending = []) ∧
    ∀ answer, (s.drainFrom seat s.pending).1 = some answer →
      Answered seat answer (s.drainFrom seat s.pending).2 := by
  rcases drainFrom_cases seat s s.pending with
    ⟨hquiet, hdrain⟩ | ⟨quiet, step, rest, answer, hpending, hquiet, hanswer, hdrain⟩
  · rw [hdrain]
    refine ⟨fun _ => ⟨?_, ?_, rfl⟩,
      fun answer hgiven => absurd hgiven (Option.some_ne_none answer).symm⟩
    · refine h.of_log rfl (took_ne_read s.pending) ?_
      simp [HarnessSession.keepProse]
    · have hreleased : callsReleased (s.pending.map HarnessEvent.took) = [] := by
        simp [callsReleased, HarnessEvent.call?, List.filterMap_map]
      simp only [AllReleased, HarnessSession.keepProse, releasedCalls_append, takenSteps_append,
        List.filterMap_append, hreleased, takenSteps_took, callOf_of_quiet hquiet, List.append_nil]
      exact hcalls
  · rw [hdrain]
    refine ⟨fun hnone => absurd hnone (Option.some_ne_none answer), fun given hgiven => ?_⟩
    obtain rfl := Option.some.inj hgiven
    obtain ⟨hgoes, hstops⟩ := answerTo_call hanswer
    have hlog : ((s.keepProse quiet (step :: rest)).take seat step rest).log =
        s.log ++ (quiet ++ [step]).map .took := by
      simp [HarnessSession.keepProse]
    have hreleased : callsReleased ((quiet ++ [step]).map HarnessEvent.took) = [] := by
      simp [callsReleased, HarnessEvent.call?, List.filterMap_map]
    have htaken : (takenSteps (s.log ++ (quiet ++ [step]).map .took)).filterMap seat.callOf =
        callsReleased s.log ++ (seat.callOf step).toList := by
      rw [takenSteps_append, takenSteps_took, List.filterMap_append, List.filterMap_append,
        callOf_of_quiet hquiet, ← hcalls]
      cases hcall : seat.callOf step <;> simp [hcall]
    refine ⟨?_, ?_, ?_⟩
    · refine h.of_log hlog (took_ne_read _) ?_
      rw [takenSteps_took, take_pending, hpending, List.append_assoc]
      rfl
    · rw [hlog, htaken, releasedCalls_append, hreleased, List.append_nil]
      cases hon : answer.goesOn with
      | true => rw [hgoes hon]
      | false =>
          rw [hstops hon]
          simp
    · intro hon
      rw [hlog, htaken, releasedCalls_append, hreleased, List.append_nil, hgoes hon]

/-- An answer that stops the turn, and hands nothing over, leaves the account as it is. -/
theorem Answered.of_stop {answer : NextAnswer} {s : HarnessSession} (h : Accounted seat s)
    (hcalls : AllReleased seat s) (hstops : answer.goesOn = false) (hnone : answer.call? = none) :
    Answered seat answer s := by
  refine ⟨h, ?_, ?_⟩
  · rw [hnone, ← hcalls]
    simp
  · intro hon
    rw [hstops] at hon
    cases hon

/-- The loop of a call keeps the account, whatever it comes to. -/
theorem readOn_answered {s : HarnessSession} (rounds : ℕ) (h : Accounted seat s)
    (hcalls : AllReleased seat s) :
    Answered seat (s.readOn seat rounds).1 (s.readOn seat rounds).2 := by
  induction rounds generalizing s with
  | zero => exact .of_stop h hcalls rfl rfl
  | succ rounds ih =>
      obtain ⟨hempty, hanswered⟩ := drainFrom_answered h hcalls
      simp only [HarnessSession.readOn, HarnessSession.drainPending]
      generalize s.drainFrom seat s.pending = drained at hempty hanswered
      obtain ⟨answer, drained⟩ := drained
      cases answer with
      | some answer => exact hanswered answer rfl
      | none =>
          obtain ⟨haccounted, hreleased, hpending⟩ := hempty rfl
          dsimp only at haccounted hreleased hpending ⊢
          cases seat.channel.read drained.reads with
          | frame frame =>
              refine ih (haccounted.of_read hpending rfl ?_) ?_
              · simp [hpending, HarnessSession.record, HarnessSeat.stepsOf]
              · exact hreleased.of_log rfl rfl rfl
          | ended =>
              exact .of_stop (haccounted.of_read hpending rfl hpending) (hreleased.of_log rfl rfl rfl) rfl rfl
          | threw =>
              exact .of_stop (haccounted.of_read hpending rfl hpending) (hreleased.of_log rfl rfl rfl) rfl rfl

/-! ## Runs -/

/-- Of the calls the frames of a turn ask for, which were released. -/
structure CallsInOrder (seat : HarnessSeat) (s : HarnessSession) : Prop where
  accounted : Accounted seat s
  /-- Each once, and in the order of the frames. -/
  order : callsReleased s.log <+: (readSteps seat s.log).filterMap seat.callOf
  /-- Until a decision ends the turn, all but the ones still queued. -/
  going : s.finished = false →
    callsReleased s.log ++ s.pending.filterMap seat.callOf =
      (readSteps seat s.log).filterMap seat.callOf

theorem callsInOrder_create : CallsInOrder seat .create := by
  refine ⟨⟨rfl, ?_⟩, List.nil_prefix, fun _ => rfl⟩
  intro before read after h
  cases before <;> cases h

theorem CallsInOrder.allReleased {s : HarnessSession} (h : CallsInOrder seat s)
    (hgoing : s.finished = false) : AllReleased seat s := by
  have hcalls := h.going hgoing
  rw [← h.accounted.queue, List.filterMap_append] at hcalls
  exact List.append_cancel_right hcalls

/-- A call of `next` keeps the account. -/
theorem call_answered {s : HarnessSession} (input : AgentTurnInput) (h : Accounted seat s)
    (hcalls : AllReleased seat s) :
    Answered seat (s.call seat input).1 (s.call seat input).2 := by
  have hbegun : Accounted seat (s.begun seat input) ∧ AllReleased seat (s.begun seat input) := by
    cases input with
    | start =>
        refine ⟨h.of_log rfl ?_ rfl, hcalls.of_log rfl rfl rfl⟩
        simp
    | toolResult result =>
        have hlog : (s.begun seat (.toolResult result)).log =
            s.log ++ [.asked, .wrote (seat.protocol.encodeToolResult result)] :=
          List.append_assoc _ _ _
        refine ⟨h.of_log hlog ?_ rfl, hcalls.of_log hlog rfl rfl⟩
        simp
  by_cases hover : s.HandsOver seat input
  · rw [(call_eq s input).1 hover]
    exact readOn_answered _ hbegun.1 hbegun.2
  · rw [(call_eq s input).2 hover]
    exact .of_stop hbegun.1 hbegun.2 rfl rfl

/-- The step lemma of the order. -/
theorem callsInOrder_step {s s' : HarnessSession} {input : AgentTurnInput}
    (h : CallsInOrder seat s) (hstep : harnessStep seat s input = some s') :
    CallsInOrder seat s' := by
  unfold harnessStep at hstep
  cases hover : s.finished with
  | true =>
      rw [hover] at hstep
      cases hstep
  | false =>
      rw [hover] at hstep
      have hanswered := call_answered input h.accounted (h.allReleased hover)
      generalize s.call seat input = called at hanswered hstep
      obtain ⟨answer, called⟩ := called
      obtain rfl := Option.some.inj hstep
      have hlog : callsReleased (called.log ++ [.answered answer]) =
          callsReleased called.log ++ answer.call?.toList := by
        rw [releasedCalls_append]
        cases hcall : answer.call? <;> simp [callsReleased, HarnessEvent.call?, hcall]
      have haccounted : Accounted seat
          { called.record (.answered answer) with finished := !answer.goesOn } := by
        refine hanswered.accounted.of_log rfl ?_ rfl
        simp
      have hcalls : (readSteps seat (called.log ++ [.answered answer])).filterMap seat.callOf =
          (takenSteps called.log).filterMap seat.callOf ++ called.pending.filterMap seat.callOf := by
        rw [← List.filterMap_append, hanswered.accounted.queue, readSteps_append]
        simp [readSteps, HarnessEvent.stepsRead]
      refine ⟨haccounted, ?_, ?_⟩
      · show callsReleased (called.log ++ [.answered answer]) <+: _
        rw [hlog]
        refine hanswered.calls.trans ?_
        show _ <+: (readSteps seat (called.log ++ [.answered answer])).filterMap seat.callOf
        rw [hcalls]
        exact List.prefix_append _ _
      · intro hgoing
        have hon : answer.goesOn = true := by simpa using hgoing
        show callsReleased (called.log ++ [.answered answer]) ++ called.pending.filterMap seat.callOf =
          (readSteps seat (called.log ++ [.answered answer])).filterMap seat.callOf
        rw [hlog, hcalls, hanswered.going hon]

/-- **Every run releases the calls of its frames in their order**, each once, and reads a frame only
when nothing is queued. -/
theorem callsInOrder_run {calls : List AgentTurnInput} {s : HarnessSession}
    (h : run (harnessStep seat) .create calls = some s) : CallsInOrder seat s :=
  run_invariant (fun _ _ _ hs hstep => callsInOrder_step hs hstep) callsInOrder_create h

/-- **A turn is read as it should be exactly where no call of it is at the boundary of its guard**:
every call answers with the first decision it can reach, and the calls of the frames are released in
order, each once. -/
theorem turn_read_iff {calls : List AgentTurnInput} {s : HarnessSession}
    (h : run (harnessStep seat) .create calls = some s) :
    (StepsMeet (harnessStep seat) (CallMeets seat) .create calls ∧ CallsInOrder seat s) ↔
      StepsMeet (harnessStep seat) (fun s input => ¬ AtLimit seat s input) .create calls := by
  rw [and_iff_left (callsInOrder_run h)]
  exact stepsMeet_congr (fun _ _ => callMeets_iff) HarnessSession.create calls

namespace Sample

/-- A frame that means nothing, and one that ends the turn. -/
def progressThenResult : ℕ → ChannelRead
  | 0 => .frame (.obj [("type", .str "system")])
  | 1 => .frame (.obj [("type", .str "result"), ("result", .str "done")])
  | _ => .ended

/-- A seat that ignores as many frames as this. -/
def harnessSeat (maxIgnoredFrames : ℕ) (positive : 0 < maxIgnoredFrames) : HarnessSeat where
  protocol :=
    { interpret := HarnessVendor.interpret (fun _ => none) .claudeCode
      encodeToolResult := toolResultBody }
  maxIgnoredFrames
  declareStep := none
  positive
  channel := { read := progressThenResult, write := fun _ => true }
  offered := false
  traceId := "trace"
  now := "2026-03-01T00:00:00Z"

end Sample

/-- With room for another frame, the decision is returned. -/
theorem turn_read_within_guard : ∃ s,
    run (harnessStep (Sample.harnessSeat 2 (by decide))) .create [.start] = some s ∧
    (StepsMeet (harnessStep (Sample.harnessSeat 2 (by decide)))
        (CallMeets (Sample.harnessSeat 2 (by decide))) .create [.start] ∧
      CallsInOrder (Sample.harnessSeat 2 (by decide)) s) := by
  refine ⟨_, rfl, (turn_read_iff rfl).mpr ⟨?_, fun _ _ => trivial⟩⟩
  -- the third read brings no frame
  rintro ⟨-, hdecides⟩
  obtain ⟨frame, hframe⟩ := hdecides.before.1 2 (by decide)
  cases hframe

/-- **The guard discards a decision.** One frame that means nothing is ignored, the next one ends the
turn, and the call fails on a guard of one frame. -/
theorem decision_discarded :
    ((HarnessSession.create).call (Sample.harnessSeat 1 (by decide)) .start).1 = .frameLimit ∧
    ((HarnessSession.create).call (Sample.harnessSeat 1 (by decide)) .start).2.pending =
      [.complete (some (textOutput "done"))] ∧
    ¬ ∀ (seat : HarnessSeat) (calls : List AgentTurnInput) (s : HarnessSession),
        run (harnessStep seat) .create calls = some s →
          StepsMeet (harnessStep seat) (CallMeets seat) .create calls ∧ CallsInOrder seat s := by
  refine ⟨rfl, rfl, fun hall => ?_⟩
  obtain ⟨hmeets, -⟩ := hall (Sample.harnessSeat 1 (by decide)) [.start] _ rfl
  have hlimit : AtLimit (Sample.harnessSeat 1 (by decide)) .create .start := by
    refine ⟨trivial, ⟨?_, ?_⟩, nofun⟩
    · intro i hi
      match i, hi with
      | 0, _ => exact ⟨_, rfl⟩
      | 1, _ => exact ⟨_, rfl⟩
    · intro fewer hfewer
      match fewer, hfewer with
      | 0, _ => exact quiet_nil
      | 1, _ => exact quiet_nil
  exact not_callMeets_of_atLimit hlimit hmeets.1

end SharedOS.Adapters
