/-
SharedOS.Adapters.FrameGuard — what a turn read off a harness comes to.

The steps of the frames a session reads form one queue, and the session takes it in order and reads on
only once it is empty (`Accounted`). What a call of `next` answers is then what the first step of that
queue that is not prose decides, with one exception. The guard is checked after a read and before what
was read is looked at, so that a frame which follows as many ignored ones as the guard allows is read
and then given up on (`AtLimit`).
-/
import SharedOS.Adapters.HarnessDriver
import SharedOS.Foundation.Run

namespace SharedOS.Adapters

open SharedOS.Foundation SharedOS.Contracts SharedOS.Mcp SharedOS.Runtime

/-! ## Prose, and the first step that decides -/

/-- The text of a message. -/
def HarnessStep.text? : HarnessStep → Option JsString
  | .message text => some text
  | _ => none

/-- Steps of which none decides. -/
def Quiet (steps : List HarnessStep) : Prop := ∀ step ∈ steps, step.text?.isSome

instance (steps : List HarnessStep) : Decidable (Quiet steps) :=
  inferInstanceAs (Decidable (∀ step ∈ steps, step.text?.isSome))

/-- What the first of the steps that is not prose decides, once the prose before it is kept. -/
def HarnessSeat.verdict (seat : HarnessSeat) (messages : List JsString) (released : ℕ)
    (steps : List HarnessStep) : Option NextAnswer :=
  (steps.find? fun step => step.text?.isNone).bind
    (seat.answerTo
      (messages ++ (steps.takeWhile fun step => step.text?.isSome).filterMap HarnessStep.text?)
      released)

@[simp] theorem quiet_nil : Quiet [] := nofun

@[simp] theorem quiet_cons {step : HarnessStep} {rest : List HarnessStep} :
    Quiet (step :: rest) ↔ step.text?.isSome ∧ Quiet rest := List.forall_mem_cons

@[simp] theorem quiet_append {first second : List HarnessStep} :
    Quiet (first ++ second) ↔ Quiet first ∧ Quiet second := List.forall_mem_append

variable {seat : HarnessSeat}

/-- Exactly prose decides nothing. -/
theorem answerTo_eq_none_iff {messages : List JsString} {released : ℕ} {step : HarnessStep} :
    seat.answerTo messages released step = none ↔ step.text?.isSome := by
  cases step with
  | toolCall callId tool arguments =>
      simp only [HarnessSeat.answerTo, HarnessStep.text?]
      cases askedToEscalate seat.offered tool (some arguments) <;> simp
  | message text => simp [HarnessSeat.answerTo, HarnessStep.text?]
  | complete output metadata => simp [HarnessSeat.answerTo, HarnessStep.text?]
  | failed error => simp [HarnessSeat.answerTo, HarnessStep.text?]

/-- A step answers for itself: the guard and the end of a channel are not its to report. -/
theorem answerTo_own {messages : List JsString} {released : ℕ} {step : HarnessStep}
    {answer : NextAnswer} (h : seat.answerTo messages released step = some answer) :
    answer ≠ .frameLimit := by
  cases step with
  | toolCall callId tool arguments =>
      simp only [HarnessSeat.answerTo] at h
      cases hask : askedToEscalate seat.offered tool (some arguments) with
      | some reason =>
          rw [hask] at h
          cases h
          exact nofun
      | none =>
          rw [hask] at h
          cases h
          unfold HarnessSeat.release
          cases seat.declareStep.elim (.ok none) fun declare => declare released <;> exact nofun
  | message text => cases h
  | complete output metadata => cases h; exact nofun
  | failed error => cases h; exact nofun

@[simp] theorem verdict_nil (messages : List JsString) (released : ℕ) :
    seat.verdict messages released [] = none := rfl

theorem verdict_cons_of_isSome {messages : List JsString} {released : ℕ} {text : JsString}
    {rest : List HarnessStep} : seat.verdict messages released (.message text :: rest) =
      seat.verdict (messages ++ [text]) released rest := by
  simp [HarnessSeat.verdict, HarnessStep.text?]

theorem verdict_cons_of_answer {messages : List JsString} {released : ℕ} {step : HarnessStep}
    {rest : List HarnessStep} {answer : NextAnswer}
    (h : seat.answerTo messages released step = some answer) :
    seat.verdict messages released (step :: rest) = some answer := by
  have hstep : step.text? = none := by
    rw [← Option.not_isSome_iff_eq_none, ← answerTo_eq_none_iff, h]
    exact nofun
  simp [HarnessSeat.verdict, hstep, h]

/-- Prose in front is kept, and what follows it decides. -/
theorem verdict_append {messages : List JsString} {released : ℕ} {quiet rest : List HarnessStep}
    (h : Quiet quiet) : seat.verdict messages released (quiet ++ rest) =
      seat.verdict (messages ++ quiet.filterMap HarnessStep.text?) released rest := by
  induction quiet generalizing messages with
  | nil => simp
  | cons step quiet ih =>
      obtain ⟨hstep, hquiet⟩ := quiet_cons.mp h
      cases step with
      | message text =>
          rw [List.cons_append, verdict_cons_of_isSome, ih hquiet, List.append_assoc]
          rfl
      | toolCall callId tool arguments => cases hstep
      | complete output metadata => cases hstep
      | failed error => cases hstep

/-- Something decides exactly where not all is prose. -/
theorem verdict_isSome_iff {messages : List JsString} {released : ℕ} {steps : List HarnessStep} :
    (seat.verdict messages released steps).isSome ↔ ¬ Quiet steps := by
  induction steps generalizing messages with
  | nil => simp
  | cons step rest ih =>
      cases hanswer : seat.answerTo messages released step with
      | some answer =>
          have hstep : ¬ step.text?.isSome := by
            rw [← answerTo_eq_none_iff, hanswer]
            exact nofun
          simp [verdict_cons_of_answer hanswer, hstep]
      | none =>
          have hstep := answerTo_eq_none_iff.mp hanswer
          cases step with
          | message text =>
              rw [verdict_cons_of_isSome, ih, quiet_cons]
              simp [hstep]
          | toolCall callId tool arguments => cases hstep
          | complete output metadata => cases hstep
          | failed error => cases hstep

theorem exists_verdict (seat : HarnessSeat) (messages : List JsString) (released : ℕ)
    {steps : List HarnessStep} (h : ¬ Quiet steps) :
    ∃ answer, seat.verdict messages released steps = some answer :=
  Option.isSome_iff_exists.mp (verdict_isSome_iff.mpr h)

theorem verdict_own {messages : List JsString} {released : ℕ} {steps : List HarnessStep}
    {answer : NextAnswer} (h : seat.verdict messages released steps = some answer) :
    answer ≠ .frameLimit := by
  obtain ⟨step, -, hstep⟩ := Option.bind_eq_some_iff.mp h
  exact answerTo_own hstep

/-! ## The queue -/

/-- Taking prose keeps it, and counts nothing. -/
theorem take_message {s : HarnessSession} {text : JsString} {rest : List HarnessStep} :
    s.take seat (.message text) rest =
      { s with
        pending := rest
        messages := s.messages ++ [text]
        log := s.log ++ [.took (.message text)] } := rfl

@[simp] theorem take_log (s : HarnessSession) (step : HarnessStep) (rest : List HarnessStep) :
    (s.take seat step rest).log = s.log ++ [.took step] := by
  cases step with
  | toolCall callId tool arguments =>
      unfold HarnessSession.take
      dsimp only
      split <;> rfl
  | message text => rfl
  | complete output metadata => rfl
  | failed error => rfl

@[simp] theorem take_pending (s : HarnessSession) (step : HarnessStep) (rest : List HarnessStep) :
    (s.take seat step rest).pending = rest := by
  cases step with
  | toolCall callId tool arguments =>
      unfold HarnessSession.take
      dsimp only
      split <;> rfl
  | message text => rfl
  | complete output metadata => rfl
  | failed error => rfl

@[simp] theorem take_reads (s : HarnessSession) (step : HarnessStep) (rest : List HarnessStep) :
    (s.take seat step rest).reads = s.reads := by
  cases step with
  | toolCall callId tool arguments =>
      unfold HarnessSession.take
      dsimp only
      split <;> rfl
  | message text => rfl
  | complete output metadata => rfl
  | failed error => rfl

/-- The session once prose has been taken, with these steps left. -/
def HarnessSession.keepProse (s : HarnessSession) (quiet rest : List HarnessStep) :
    HarnessSession :=
  { s with
    pending := rest
    messages := s.messages ++ quiet.filterMap HarnessStep.text?
    log := s.log ++ quiet.map .took }

/-- What a drain can do: keep all there is as prose, or stop at the first step that is none. -/
theorem drainFrom_cases (seat : HarnessSeat) (s : HarnessSession) (steps : List HarnessStep) :
    (Quiet steps ∧ s.drainFrom seat steps = (none, s.keepProse steps [])) ∨
      ∃ quiet step rest answer, steps = quiet ++ step :: rest ∧ Quiet quiet ∧
        seat.answerTo (s.messages ++ quiet.filterMap HarnessStep.text?) s.released step =
          some answer ∧
        s.drainFrom seat steps =
          (some answer, (s.keepProse quiet (step :: rest)).take seat step rest) := by
  induction steps generalizing s with
  | nil => exact .inl ⟨quiet_nil, by simp [HarnessSession.drainFrom, HarnessSession.keepProse]⟩
  | cons first rest ih =>
      cases hanswer : seat.answerTo s.messages s.released first with
      | some answer =>
          refine .inr ⟨[], first, rest, answer, rfl, quiet_nil, ?_, ?_⟩
          · simpa using hanswer
          · cases first <;>
              simp [HarnessSession.drainFrom, hanswer, HarnessSession.keepProse,
                HarnessSession.take, HarnessSession.record]
      | none =>
          have hfirst := answerTo_eq_none_iff.mp hanswer
          cases first with
          | toolCall callId tool arguments => cases hfirst
          | complete output metadata => cases hfirst
          | failed error => cases hfirst
          | message text =>
              -- prose: the rest is drained from the session that keeps it
              have hdrain : s.drainFrom seat (.message text :: rest) =
                  (s.take seat (.message text) rest).drainFrom seat rest := by
                simp only [HarnessSession.drainFrom, hanswer]
              rw [hdrain, take_message]
              rcases ih { s with
                  pending := rest
                  messages := s.messages ++ [text]
                  log := s.log ++ [.took (.message text)] } with
                ⟨hquiet, hrest⟩ | ⟨quiet, step, left, answer, rfl, hquiet, hstep, hrest⟩
              · refine .inl ⟨quiet_cons.mpr ⟨rfl, hquiet⟩, ?_⟩
                rw [hrest]
                simp [HarnessSession.keepProse, HarnessStep.text?]
              · refine .inr ⟨.message text :: quiet, step, left, answer, rfl,
                  quiet_cons.mpr ⟨rfl, hquiet⟩, ?_, ?_⟩
                · simpa [HarnessStep.text?] using hstep
                · rw [hrest]
                  simp [HarnessSession.keepProse, HarnessStep.text?]

/-- A drain comes to the verdict on what is queued. -/
theorem drainFrom_fst (seat : HarnessSeat) (s : HarnessSession) (steps : List HarnessStep) :
    (s.drainFrom seat steps).1 = seat.verdict s.messages s.released steps := by
  rcases drainFrom_cases seat s steps with
    ⟨hquiet, h⟩ | ⟨quiet, step, rest, answer, rfl, hquiet, hanswer, h⟩
  · rw [h]
    cases hverdict : seat.verdict s.messages s.released steps with
    | none => rfl
    | some answer =>
        exact absurd hquiet (verdict_isSome_iff.mp (Option.isSome_of_eq_some hverdict))
  · rw [h, verdict_append hquiet, verdict_cons_of_answer hanswer]

theorem drainFrom_of_quiet {s : HarnessSession} {steps : List HarnessStep} (h : Quiet steps) :
    s.drainFrom seat steps = (none, s.keepProse steps []) := by
  rcases drainFrom_cases seat s steps with
    ⟨-, hdrain⟩ | ⟨quiet, step, rest, answer, rfl, -, hanswer, -⟩
  · exact hdrain
  · have hstep : step.text?.isSome := (quiet_append.mp h).2 step List.mem_cons_self
    rw [answerTo_eq_none_iff.mpr hstep] at hanswer
    cases hanswer

@[simp] theorem drainFrom_reads (s : HarnessSession) (steps : List HarnessStep) :
    (s.drainFrom seat steps).2.reads = s.reads := by
  rcases drainFrom_cases seat s steps with
    ⟨-, h⟩ | ⟨quiet, step, rest, answer, -, -, -, h⟩
  · rw [h]
    rfl
  · rw [h]
    exact take_reads _ step rest

/-! ## One call -/

/-- The steps of the frame a read brought. -/
def HarnessSeat.stepsOf (seat : HarnessSeat) : ChannelRead → List HarnessStep
  | .frame frame => seat.protocol.interpret frame
  | _ => []

/-- The steps of so many frames of the channel, from the one at a position on. -/
def HarnessSeat.stepsFrom (seat : HarnessSeat) (position : ℕ) : ℕ → List HarnessStep
  | 0 => []
  | count + 1 => seat.stepsOf (seat.channel.read position) ++ seat.stepsFrom (position + 1) count

/-- The reads from a position on bring so many frames. -/
def HarnessSeat.FramesFrom (seat : HarnessSeat) (position count : ℕ) : Prop :=
  ∀ i < count, ∃ frame, seat.channel.read (position + i) = .frame frame

/-- What a call has to take if it reads so many frames: what is queued, then their steps. -/
def HarnessSession.ahead (seat : HarnessSeat) (s : HarnessSession) (count : ℕ) : List HarnessStep :=
  s.pending ++ seat.stepsFrom s.reads count

/-! ## The loop of a call -/

/-- The session with a frame read, once what was queued has been kept as prose. -/
def HarnessSession.withFrame (seat : HarnessSeat) (s : HarnessSession) (frame : Json) :
    HarnessSession :=
  { s.keepProse s.pending (seat.protocol.interpret frame) with
    reads := s.reads + 1
    log := s.log ++ s.pending.map .took ++ [.read (.frame frame)] }

theorem readOn_of_decides {s : HarnessSession} (left : ℕ) {answer : NextAnswer}
    (h : seat.verdict s.messages s.released s.pending = some answer) :
    s.readOn seat (left + 1) = (answer, (s.drainFrom seat s.pending).2) := by
  have hdrain := (drainFrom_fst seat s s.pending).trans h
  simp only [HarnessSession.readOn, HarnessSession.drainPending]
  cases hpair : s.drainFrom seat s.pending with
  | mk first session =>
      rw [hpair] at hdrain
      cases hdrain
      rfl

theorem readOn_of_frame {s : HarnessSession} (left : ℕ) (hquiet : Quiet s.pending) {frame : Json}
    (hframe : seat.channel.read s.reads = .frame frame) :
    s.readOn seat (left + 1) = (s.withFrame seat frame).readOn seat left := by
  simp only [HarnessSession.readOn, HarnessSession.drainPending, drainFrom_of_quiet hquiet]
  have hreads : (s.keepProse s.pending []).reads = s.reads := rfl
  rw [hreads, hframe]
  rfl

/-- With no frame to read, the call ends here, and not on the guard. -/
theorem readOn_of_silence {s : HarnessSession} (left : ℕ) (hquiet : Quiet s.pending)
    (hread : ∀ frame, seat.channel.read s.reads ≠ .frame frame) :
    (s.readOn seat (left + 1)).1 ≠ .frameLimit ∧ (s.readOn seat (left + 1)).2.reads = s.reads + 1 := by
  simp only [HarnessSession.readOn, HarnessSession.drainPending, drainFrom_of_quiet hquiet]
  have hreads : (s.keepProse s.pending []).reads = s.reads := rfl
  rw [hreads]
  cases hanswer : seat.channel.read s.reads with
  | frame frame => exact absurd hanswer (hread frame)
  | ended => exact ⟨nofun, rfl⟩
  | threw => exact ⟨nofun, rfl⟩

theorem ahead_zero (s : HarnessSession) : s.ahead seat 0 = s.pending := List.append_nil _

theorem ahead_succ {s : HarnessSession} {frame : Json} (count : ℕ)
    (hframe : seat.channel.read s.reads = .frame frame) :
    s.ahead seat (count + 1) = s.pending ++ (s.withFrame seat frame).ahead seat count := by
  simp only [HarnessSession.ahead, HarnessSeat.stepsFrom, hframe, HarnessSeat.stepsOf]
  rfl

theorem framesFrom_succ {position count : ℕ} : seat.FramesFrom position (count + 1) ↔
    (∃ frame, seat.channel.read position = .frame frame) ∧ seat.FramesFrom (position + 1) count := by
  constructor
  · intro h
    refine ⟨h 0 (Nat.succ_pos count), fun i hi => ?_⟩
    have hnext := h (i + 1) (Nat.succ_lt_succ hi)
    rwa [show position + (i + 1) = position + 1 + i by omega] at hnext
  · rintro ⟨hfirst, hrest⟩ i hi
    cases i with
    | zero => exact hfirst
    | succ i =>
        have hnext := hrest i (Nat.lt_of_succ_lt_succ hi)
        rwa [show position + 1 + i = position + (i + 1) by omega] at hnext

/-- Nothing decides among so many frames, or in what was queued before them. -/
def HarnessSession.QuietFor (seat : HarnessSeat) (s : HarnessSession) (count : ℕ) : Prop :=
  seat.FramesFrom s.reads count ∧ ∀ fewer < count, Quiet (s.ahead seat fewer)

theorem quietFor_succ {s : HarnessSession} {frame : Json} (count : ℕ)
    (hframe : seat.channel.read s.reads = .frame frame) : s.QuietFor seat (count + 1) ↔
      Quiet s.pending ∧ (s.withFrame seat frame).QuietFor seat count := by
  unfold HarnessSession.QuietFor
  rw [framesFrom_succ]
  constructor
  · rintro ⟨⟨-, hframes⟩, hquiet⟩
    have hpending : Quiet s.pending := by
      have := hquiet 0 (Nat.succ_pos count)
      rwa [ahead_zero] at this
    refine ⟨hpending, hframes, fun fewer hfewer => ?_⟩
    have := hquiet (fewer + 1) (Nat.succ_lt_succ hfewer)
    rw [ahead_succ fewer hframe, quiet_append] at this
    exact this.2
  · rintro ⟨hpending, hframes, hquiet⟩
    refine ⟨⟨⟨frame, hframe⟩, hframes⟩, fun fewer hfewer => ?_⟩
    cases fewer with
    | zero => rwa [ahead_zero]
    | succ fewer =>
        rw [ahead_succ fewer hframe, quiet_append]
        exact ⟨hpending, hquiet fewer (Nat.lt_of_succ_lt_succ hfewer)⟩

/-- Nothing decides before the frame that makes up this count, and with it something does. -/
structure HarnessSession.DecidesAfter (seat : HarnessSeat) (s : HarnessSession) (count : ℕ) :
    Prop where
  before : s.QuietFor seat count
  decides : ¬ Quiet (s.ahead seat count)

theorem decidesAfter_succ {s : HarnessSession} {count : ℕ} (h : s.DecidesAfter seat (count + 1)) :
    ∃ frame, seat.channel.read s.reads = .frame frame ∧ Quiet s.pending ∧
      (s.withFrame seat frame).DecidesAfter seat count := by
  obtain ⟨frame, hframe⟩ := (framesFrom_succ.mp h.before.1).1
  obtain ⟨hpending, hbefore⟩ := (quietFor_succ count hframe).mp h.before
  refine ⟨frame, hframe, hpending, hbefore, fun hquiet => h.decides ?_⟩
  rw [ahead_succ count hframe, quiet_append]
  exact ⟨hpending, hquiet⟩

/-- The verdict on what is ahead, before a frame is read and after. -/
theorem verdict_ahead_succ {s : HarnessSession} {frame : Json} (count : ℕ)
    (hframe : seat.channel.read s.reads = .frame frame) (hquiet : Quiet s.pending) :
    seat.verdict s.messages s.released (s.ahead seat (count + 1)) =
      seat.verdict (s.withFrame seat frame).messages (s.withFrame seat frame).released
        ((s.withFrame seat frame).ahead seat count) := by
  rw [ahead_succ count hframe, verdict_append hquiet]
  rfl

/-- **What decides within the rounds is answered**, and no frame is read beyond it. -/
theorem readOn_decides {s : HarnessSession} {count rounds : ℕ} (hcount : count < rounds)
    (h : s.DecidesAfter seat count) :
    some (s.readOn seat rounds).1 = seat.verdict s.messages s.released (s.ahead seat count) ∧
      (s.readOn seat rounds).2.reads = s.reads + count := by
  induction count generalizing s rounds with
  | zero =>
      obtain ⟨left, rfl⟩ := Nat.exists_eq_add_one.mpr hcount
      have hdecides := h.decides
      rw [ahead_zero] at hdecides ⊢
      obtain ⟨answer, hanswer⟩ :=
        exists_verdict seat s.messages s.released hdecides
      rw [readOn_of_decides left hanswer, hanswer]
      exact ⟨rfl, drainFrom_reads s s.pending⟩
  | succ count ih =>
      obtain ⟨left, rfl⟩ := Nat.exists_eq_add_one.mpr (Nat.zero_lt_of_lt hcount)
      obtain ⟨frame, hframe, hquiet, hrest⟩ := decidesAfter_succ h
      obtain ⟨hanswer, hreads⟩ := ih (Nat.lt_of_succ_lt_succ hcount) hrest
      rw [readOn_of_frame left hquiet hframe, verdict_ahead_succ count hframe hquiet]
      refine ⟨hanswer, hreads.trans ?_⟩
      show s.reads + 1 + count = s.reads + (count + 1)
      omega

/-- **The guard stops a call** exactly where each round read a frame and nothing before the last of
these decides. What the last one means has not been looked at. -/
theorem readOn_frameLimit_iff {s : HarnessSession} {rounds : ℕ} :
    (s.readOn seat rounds).1 = .frameLimit ↔ s.QuietFor seat rounds := by
  induction rounds generalizing s with
  | zero =>
      refine iff_of_true rfl ⟨fun i hi => absurd hi (Nat.not_lt_zero i), ?_⟩
      exact fun fewer hfewer => absurd hfewer (Nat.not_lt_zero fewer)
  | succ rounds ih =>
      by_cases hquiet : Quiet s.pending
      · by_cases hframe : ∃ frame, seat.channel.read s.reads = .frame frame
        · obtain ⟨frame, hframe⟩ := hframe
          rw [readOn_of_frame rounds hquiet hframe, ih, quietFor_succ rounds hframe]
          exact (and_iff_right hquiet).symm
        · refine iff_of_false (readOn_of_silence rounds hquiet (not_exists.mp hframe)).1 ?_
          exact fun h => hframe (framesFrom_succ.mp h.1).1
      · -- what is queued decides, so no frame is read
        obtain ⟨answer, hanswer⟩ :=
          exists_verdict seat s.messages s.released hquiet
        rw [readOn_of_decides rounds hanswer]
        refine iff_of_false (verdict_own hanswer) fun h => hquiet ?_
        have := h.2 0 (Nat.succ_pos rounds)
        rwa [ahead_zero] at this

theorem readOn_reads_le (seat : HarnessSeat) (s : HarnessSession) (rounds : ℕ) :
    (s.readOn seat rounds).2.reads ≤ s.reads + rounds := by
  induction rounds generalizing s with
  | zero => exact Nat.le_refl _
  | succ rounds ih =>
      by_cases hquiet : Quiet s.pending
      · by_cases hframe : ∃ frame, seat.channel.read s.reads = .frame frame
        · obtain ⟨frame, hframe⟩ := hframe
          rw [readOn_of_frame rounds hquiet hframe]
          have hrest : ((s.withFrame seat frame).readOn seat rounds).2.reads ≤
              s.reads + 1 + rounds := ih (s.withFrame seat frame)
          omega
        · rw [(readOn_of_silence rounds hquiet (not_exists.mp hframe)).2]
          omega
      · obtain ⟨answer, hanswer⟩ :=
          exists_verdict seat s.messages s.released hquiet
        rw [readOn_of_decides rounds hanswer, drainFrom_reads]
        omega

/-! ## What a call is to meet -/

/-- The call reads the stream: the result it is made with, if any, has reached the harness. -/
def HarnessSession.HandsOver (seat : HarnessSeat) (s : HarnessSession) : AgentTurnInput → Prop
  | .start => True
  | .toolResult _ => seat.channel.write s.writes = true

/-- What a call of `next` answers, and what it reads for that. -/
structure CallMeets (seat : HarnessSeat) (s : HarnessSession) (input : AgentTurnInput) : Prop where
  /-- The first frame that yields a decision decides, after at most as many frames that yield none as
  the guard allows; where what is queued yields one, no frame is read. -/
  decides : s.HandsOver seat input → ∀ count ≤ seat.maxIgnoredFrames + 1, s.DecidesAfter seat count →
    some (s.call seat input).1 = seat.verdict s.messages s.released (s.ahead seat count) ∧
      (s.call seat input).2.reads = s.reads + count
  /-- The call fails on the guard only after more frames that yield no decision. -/
  limit : (s.call seat input).1 = .frameLimit →
    seat.FramesFrom s.reads (seat.maxIgnoredFrames + 1) ∧
      Quiet (s.ahead seat (seat.maxIgnoredFrames + 1))
  reads : (s.call seat input).2.reads ≤ s.reads + (seat.maxIgnoredFrames + 1)

/-- Exactly as many frames as the guard allows yield no decision, and the one after them yields
one. -/
def AtLimit (seat : HarnessSeat) (s : HarnessSession) (input : AgentTurnInput) : Prop :=
  s.HandsOver seat input ∧ s.DecidesAfter seat (seat.maxIgnoredFrames + 1)

/-- The session of a call once its result, if it is made with one, has been written. -/
def HarnessSession.begun (seat : HarnessSeat) (s : HarnessSession) : AgentTurnInput → HarnessSession
  | .start => s.record .asked
  | .toolResult result =>
    { (s.record .asked).record (.wrote (seat.protocol.encodeToolResult result)) with
      writes := s.writes + 1 }

/-- A call reads the stream from there, or fails on its write. -/
theorem call_eq (s : HarnessSession) (input : AgentTurnInput) :
    (s.HandsOver seat input →
      s.call seat input = (s.begun seat input).readOn seat (seat.maxIgnoredFrames + 1)) ∧
    (¬ s.HandsOver seat input → s.call seat input = (.threw, s.begun seat input)) := by
  cases input with
  | start => exact ⟨fun _ => rfl, fun h => absurd trivial h⟩
  | toolResult result => exact ⟨fun h => if_pos h, fun h => if_neg h⟩

@[simp] theorem begun_reads (s : HarnessSession) (input : AgentTurnInput) :
    (s.begun seat input).reads = s.reads := by
  cases input <;> rfl

@[simp] theorem begun_pending (s : HarnessSession) (input : AgentTurnInput) :
    (s.begun seat input).pending = s.pending := by
  cases input <;> rfl

theorem begun_ahead (s : HarnessSession) (input : AgentTurnInput) (count : ℕ) :
    (s.begun seat input).ahead seat count = s.ahead seat count := by
  cases input <;> rfl

theorem begun_quietFor {s : HarnessSession} {input : AgentTurnInput} {count : ℕ} :
    (s.begun seat input).QuietFor seat count ↔ s.QuietFor seat count := by
  cases input <;> rfl

theorem begun_decidesAfter (s : HarnessSession) (input : AgentTurnInput) {count : ℕ} :
    (s.begun seat input).DecidesAfter seat count ↔ s.DecidesAfter seat count := by
  constructor
  · rintro ⟨hbefore, hdecides⟩
    exact ⟨begun_quietFor.mp hbefore, begun_ahead s input count ▸ hdecides⟩
  · rintro ⟨hbefore, hdecides⟩
    exact ⟨begun_quietFor.mpr hbefore, (begun_ahead s input count).symm ▸ hdecides⟩

theorem begun_verdict (s : HarnessSession) (input : AgentTurnInput) (steps : List HarnessStep) :
    seat.verdict (s.begun seat input).messages (s.begun seat input).released steps =
      seat.verdict s.messages s.released steps := by
  cases input <;> rfl

/-- A call reads no more frames than the guard allows, and one. -/
theorem call_reads_le (s : HarnessSession) (input : AgentTurnInput) :
    (s.call seat input).2.reads ≤ s.reads + (seat.maxIgnoredFrames + 1) := by
  by_cases hover : s.HandsOver seat input
  · rw [(call_eq s input).1 hover]
    have hreads := readOn_reads_le seat (s.begun seat input) (seat.maxIgnoredFrames + 1)
    rwa [begun_reads] at hreads
  · rw [(call_eq s input).2 hover, begun_reads]
    omega

/-- **Away from the boundary a call is as it should be.** -/
theorem callMeets_of_not_atLimit {s : HarnessSession} {input : AgentTurnInput}
    (h : ¬ AtLimit seat s input) : CallMeets seat s input := by
  refine ⟨?_, ?_, call_reads_le s input⟩
  · intro hover count hcount hdecides
    have hbelow : count < seat.maxIgnoredFrames + 1 := by
      refine Nat.lt_of_le_of_ne hcount ?_
      rintro rfl
      exact h ⟨hover, hdecides⟩
    have hanswer := readOn_decides hbelow ((begun_decidesAfter s input).mpr hdecides)
    rwa [← (call_eq s input).1 hover, begun_verdict, begun_ahead, begun_reads] at hanswer
  · intro hlimit
    by_cases hover : s.HandsOver seat input
    · rw [(call_eq s input).1 hover, readOn_frameLimit_iff, begun_quietFor] at hlimit
      refine ⟨hlimit.1, ?_⟩
      by_contra hdecides
      exact h ⟨hover, hlimit, hdecides⟩
    · rw [(call_eq s input).2 hover] at hlimit
      cases hlimit

/-- **At the boundary the decision is lost**: the frame that yields it is read, and the call fails. -/
theorem not_callMeets_of_atLimit {s : HarnessSession} {input : AgentTurnInput}
    (h : AtLimit seat s input) : ¬ CallMeets seat s input := by
  intro hmeets
  obtain ⟨hover, hdecides⟩ := h
  have hlimit : (s.call seat input).1 = .frameLimit := by
    rw [(call_eq s input).1 hover, readOn_frameLimit_iff, begun_quietFor]
    exact hdecides.before
  exact hdecides.decides (hmeets.limit hlimit).2

theorem callMeets_iff {s : HarnessSession} {input : AgentTurnInput} :
    CallMeets seat s input ↔ ¬ AtLimit seat s input := by
  constructor
  · intro hmeets hlimit
    exact not_callMeets_of_atLimit hlimit hmeets
  · exact callMeets_of_not_atLimit

end SharedOS.Adapters
