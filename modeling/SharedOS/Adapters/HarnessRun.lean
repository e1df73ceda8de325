/-
SharedOS.Adapters.HarnessRun — a harness run as a process of its own, to its ending.

What the harness writes is read for the ending of the turn, and for no call: calls leave over another
channel. The first ending it declares is the turn's, and the exit of the process decides only where it
declared none. Some harnesses take their standard input as a session, which stays open until the turn
has ended, or until the harness has been silent for a time.

A run is any order of lines, diagnostics, instants, timers, the turn's signal and the exit.
`harness_run` says what holds after every run.
-/
import Mathlib.Algebra.Order.Ring.Rat
import SharedOS.Adapters.FrameChannel
import SharedOS.Adapters.FrameGuard
import SharedOS.Foundation.Run
import SharedOS.Foundation.Timers

namespace SharedOS.Adapters

open SharedOS.Foundation SharedOS.Contracts SharedOS.Mcp SharedOS.Runtime

/-! ## The process -/

/-- How a harness process ended: with its exit code, which a signal leaves out, or not started. -/
inductive HarnessExit where
  | code (code : Option ℕ)
  | error

/-- How a harness is started, as far as its session goes. -/
structure McpHarnessLaunch where
  stdin : Option JsString
  /-- Standard input is an open command channel, not one prompt. -/
  keepStdinOpen : Bool
  idleTimeoutMs : Option ℚ

/-- `DEFAULT_SESSION_IDLE_MS`. -/
def defaultSessionIdleMs : ℚ := 120000

/-- How long the harness may be silent. -/
def McpHarnessLaunch.idleMs (launch : McpHarnessLaunch) : ℚ :=
  launch.idleTimeoutMs.getD defaultSessionIdleMs

/-- What is said on the side, by the harness or about it. -/
inductive HarnessDiagnostic where
  /-- What the harness said beside its protocol. -/
  | said (text : JsString)
  /-- `no output for ${idleMs}ms; closing the harness session` -/
  | silent (idleMs : ℚ)

/-- What `runHarness` holds while the process runs. -/
structure HarnessRun where
  timers : Timers ℚ Unit
  idleTimer : Option ℕ
  /-- What was written to the process's standard input. -/
  input : List JsString
  inputEnded : Bool
  messages : List JsString
  terminal : Option AgentTurnCandidate
  diagnostics : List HarnessDiagnostic
  /-- The turn's signal was raised, and the process told to end. -/
  aborted : Bool
  exit : Option HarnessExit

/-- What may happen next. -/
inductive HarnessRunEvent where
  /-- A line of the process's output. -/
  | line (text : JsString)
  /-- A chunk of its diagnostics, without the space at its end. -/
  | stderr (text : JsString)
  | elapse (instant : ℚ)
  | fires (handle : ℕ)
  | abort
  | exited (exit : HarnessExit)

namespace HarnessRun

/-- `closeStdin`. -/
def closeStdin (s : HarnessRun) : HarnessRun :=
  { s with timers := s.timers.clearTimeout s.idleTimer, idleTimer := none, inputEnded := true }

/-- `touch`: the harness was heard, and its silence begins again. -/
def touch (launch : McpHarnessLaunch) (s : HarnessRun) : HarnessRun :=
  if !launch.keepStdinOpen || s.inputEnded then s
  else
    let armed := (s.timers.clearTimeout s.idleTimer).setTimeout launch.idleMs ()
    { s with timers := armed.2, idleTimer := some armed.1 }

/-- One step of a frame. -/
def takeStep (s : HarnessRun) : HarnessStep → HarnessRun
  | .message text => { s with messages := s.messages ++ [text] }
  | .failed error => { s with terminal := s.terminal.or (some (.fail error none)) }
  | .complete output _ =>
    { s with terminal := s.terminal.or (some (.complete (outputOr s.messages output) none)) }
  | .toolCall .. => s

/-- One frame of the harness: its steps, and the end of the input where one of them ends the turn.
-/
def onFrame (launch : McpHarnessLaunch) (protocol : HarnessProtocol) (s : HarnessRun) (frame : Json) :
    HarnessRun :=
  let s := (protocol.interpret frame).foldl takeStep s
  let s := if s.terminal.isSome then s.closeStdin else s
  s.touch launch

/-- Where the process has been started, under a signal that is not raised. -/
def start (launch : McpHarnessLaunch) : HarnessRun :=
  let s : HarnessRun :=
    { timers := .start, idleTimer := none, input := launch.stdin.toList, inputEnded := false
      messages := [], terminal := none, diagnostics := [], aborted := false, exit := none }
  if launch.keepStdinOpen then s.touch launch else s.closeStdin

/-- One diagnostic more. -/
def diagnosed (s : HarnessRun) (diagnostic : HarnessDiagnostic) : HarnessRun :=
  { s with diagnostics := s.diagnostics ++ [diagnostic] }

/-- One event, until the process has ended. -/
def step (launch : McpHarnessLaunch) (protocol : HarnessProtocol) (s : HarnessRun)
    (event : HarnessRunEvent) : Option HarnessRun :=
  if s.exit.isSome then none
  else
    match event with
    | .line text =>
      match readLine text with
      | .frame frame => some (s.onFrame launch protocol frame)
      | .diagnostic text => some (s.diagnosed (.said text))
      | .ignored => some s
    | .stderr text => some ((s.diagnosed (.said text)).touch launch)
    | .elapse instant => (s.timers.elapse instant).map fun timers => { s with timers }
    | .fires handle =>
      (s.timers.fire handle).map fun fired =>
        (({ s with timers := fired.2 }).diagnosed (.silent launch.idleMs)).closeStdin
    | .abort => some { s with aborted := true }
    | .exited exit => some { s.closeStdin with exit := some exit }

/-- `failed`. -/
def failed (code : JsString) (message : String) : AgentTurnCandidate :=
  .fail { code, message := .text (JsString.ofString message), retryable := some false } none

/-- `String(exit.code)` -/
def exitText : Option ℕ → String
  | none => "null"
  | some code => toString code

/-- What `runHarness` comes to once the process has ended. It throws where the signal was raised. -/
def outcome (id : String) (s : HarnessRun) (exit : HarnessExit) : Except Unit AgentTurnCandidate :=
  if s.aborted then .error ()
  else
    match exit with
    | .error => .ok (failed "harness_not_started" ("The " ++ id ++ " CLI could not be started."))
    | .code code =>
      match s.terminal with
      | some terminal => .ok terminal
      | none =>
        if code = some 0 then .ok (.complete (textOutput (joinLines s.messages)) none)
        else .ok (failed "harness_exited_without_outcome" ("The " ++ id ++ " CLI exited with code " ++
          exitText code ++ " without completing the turn."))

end HarnessRun

/-! ## What was declared -/

/-- The ending a step declares, after this prose. -/
def HarnessStep.ending? (messages : List JsString) : HarnessStep → Option AgentTurnCandidate
  | .failed error => some (.fail error none)
  | .complete output _ => some (.complete (outputOr messages output) none)
  | .message _ | .toolCall .. => none

/-- Whether the step declares an ending. -/
def HarnessStep.ends : HarnessStep → Bool
  | .failed _ | .complete .. => true
  | .message _ | .toolCall .. => false

/-- The prose among some steps. -/
def prose (steps : List HarnessStep) : List JsString := steps.filterMap HarnessStep.text?

/-- The first step that declares an ending declares this one, after the prose before it. -/
def Declares (steps : List HarnessStep) (outcome : AgentTurnCandidate) : Prop :=
  ∃ before step after, steps = before ++ step :: after ∧ (∀ s ∈ before, s.ends = false) ∧
    step.ending? (prose before) = some outcome

theorem prose_snoc (steps : List HarnessStep) (step : HarnessStep) :
    prose (steps ++ [step]) = prose steps ++ step.text?.toList := by
  unfold prose
  rw [List.filterMap_append]
  cases h : step.text? <;> simp [h]

/-- One step more declares the ending where none was declared before it. -/
theorem declares_snoc {steps : List HarnessStep} {step : HarnessStep} {outcome : AgentTurnCandidate} :
    Declares (steps ++ [step]) outcome ↔
      Declares steps outcome ∨
        (∀ s ∈ steps, s.ends = false) ∧ step.ending? (prose steps) = some outcome := by
  constructor
  · rintro ⟨before, decisive, after, hsplit, hbefore, hending⟩
    -- the decisive step is the last one, or it was there before
    rcases List.eq_nil_or_concat after with rfl | ⟨rest, last, rfl⟩
    · obtain ⟨rfl, hlast⟩ := List.append_inj' hsplit rfl
      obtain rfl := List.singleton_inj.mp hlast
      exact .inr ⟨hbefore, hending⟩
    · rw [List.concat_eq_append, ← List.cons_append, ← List.append_assoc] at hsplit
      exact .inl ⟨before, decisive, rest, (List.append_inj' hsplit rfl).1, hbefore, hending⟩
  · rintro (⟨before, decisive, after, rfl, hbefore, hending⟩ | ⟨hnone, hending⟩)
    · exact ⟨before, decisive, after ++ [step], by simp, hbefore, hending⟩
    · exact ⟨steps, step, [], rfl, hnone, hending⟩

/-- The run has read these steps. -/
structure HasRead (steps : List HarnessStep) (s : HarnessRun) : Prop where
  messages : s.messages = prose steps
  undecided : s.terminal = none ↔ ∀ step ∈ steps, step.ends = false
  decided : ∀ outcome, s.terminal = some outcome ↔ Declares steps outcome

namespace HarnessRun

theorem takeStep_eq (s : HarnessRun) (step : HarnessStep) :
    s.takeStep step = { s with
      messages := s.messages ++ step.text?.toList
      terminal := s.terminal.or (step.ending? s.messages) } := by
  cases step with
  | message text => simp [takeStep, HarnessStep.text?, HarnessStep.ending?]
  | failed error => simp [takeStep, HarnessStep.text?, HarnessStep.ending?]
  | complete output metadata => simp [takeStep, HarnessStep.text?, HarnessStep.ending?]
  | toolCall callId tool arguments => simp [takeStep, HarnessStep.text?, HarnessStep.ending?]

end HarnessRun

theorem hasRead_start (launch : McpHarnessLaunch) : HasRead [] (.start launch) := by
  have hstart : (HarnessRun.start launch).messages = [] ∧ (HarnessRun.start launch).terminal = none := by
    unfold HarnessRun.start
    by_cases hopen : launch.keepStdinOpen = true
    · rw [if_pos hopen]
      unfold HarnessRun.touch
      split <;> exact ⟨rfl, rfl⟩
    · rw [if_neg hopen]
      exact ⟨rfl, rfl⟩
  refine ⟨hstart.1, iff_of_true hstart.2 (by simp), fun outcome => ?_⟩
  rw [hstart.2]
  refine iff_of_false (by simp) ?_
  rintro ⟨before, step, after, hsplit, -⟩
  exact absurd hsplit (by simp)

/-- A run has read what another has that holds the same prose and the same ending. -/
theorem HasRead.congr {steps : List HarnessStep} {s s' : HarnessRun} (h : HasRead steps s)
    (hmessages : s'.messages = s.messages) (hterminal : s'.terminal = s.terminal) :
    HasRead steps s' := by
  refine ⟨hmessages.trans h.messages, ?_, ?_⟩
  · rw [hterminal]
    exact h.undecided
  · rw [hterminal]
    exact h.decided

theorem HasRead.takeStep {steps : List HarnessStep} {s : HarnessRun} (h : HasRead steps s)
    (step : HarnessStep) : HasRead (steps ++ [step]) (s.takeStep step) := by
  rw [HarnessRun.takeStep_eq, h.messages]
  have hends : step.ending? (prose steps) = none ↔ step.ends = false := by
    cases step <;> simp [HarnessStep.ending?, HarnessStep.ends]
  refine ⟨(prose_snoc steps step).symm, ?_, fun outcome => ?_⟩
  · show s.terminal.or (step.ending? (prose steps)) = none ↔ _
    rw [Option.or_eq_none_iff, h.undecided, hends]
    simp [or_imp, forall_and]
  · show s.terminal.or (step.ending? (prose steps)) = some outcome ↔ _
    rw [declares_snoc, ← h.decided, ← h.undecided]
    cases hterminal : s.terminal with
    | none => simp
    | some terminal => simp

theorem HasRead.takeSteps {steps more : List HarnessStep} {s : HarnessRun} (h : HasRead steps s) :
    HasRead (steps ++ more) (more.foldl HarnessRun.takeStep s) := by
  induction more generalizing steps s with
  | nil =>
      rw [List.append_nil]
      exact h
  | cons step more ih =>
      have hmore := ih (h.takeStep step)
      rw [List.append_assoc] at hmore
      exact hmore

/-! ## What the process is left with -/

/-- The frame an event brings. -/
def HarnessRunEvent.frame? : HarnessRunEvent → Option Json
  | .line text => (readLine text).frame?
  | _ => none

/-- The harness was heard: on its protocol, or beside it on its error output. -/
def HarnessRunEvent.heard : HarnessRunEvent → Bool
  | .line text => (readLine text).frame?.isSome
  | .stderr _ => true
  | _ => false

/-- The steps of the frames written, in order. -/
def stepsRead (protocol : HarnessProtocol) (events : List HarnessRunEvent) : List HarnessStep :=
  (events.filterMap HarnessRunEvent.frame?).flatMap protocol.interpret

/-- The instant, and the instant the harness was last heard at. -/
structure Hearing where
  now : ℚ
  heard : ℚ

/-- The clock, and when the harness was last heard. -/
def Hearing.after (h : Hearing) : HarnessRunEvent → Hearing
  | .elapse instant => { h with now := instant }
  | event => if event.heard then { h with heard := h.now } else h

/-- From the start, at which the clock stands at zero. -/
def hearing (events : List HarnessRunEvent) : Hearing :=
  events.foldl Hearing.after { now := 0, heard := 0 }

/-- While the input is open the silence is timed, by one timer. Afterwards none is left. -/
structure Attended (launch : McpHarnessLaunch) (h : Hearing) (s : HarnessRun) : Prop where
  now : s.timers.now = h.now
  timed : s.inputEnded = false → launch.keepStdinOpen = true ∧ ∃ handle, s.idleTimer = some handle ∧
    s.timers.pending = [{ handle, due := h.heard + max 0 launch.idleMs, action := () }]
  quiet : s.inputEnded = true → s.timers.pending = []

section Attending

variable {launch : McpHarnessLaunch} {h : Hearing} {s : HarnessRun}

theorem Attended.congr {s' : HarnessRun} (ha : Attended launch h s) (htimers : s'.timers = s.timers)
    (hidle : s'.idleTimer = s.idleTimer) (hended : s'.inputEnded = s.inputEnded) :
    Attended launch h s' := by
  refine ⟨?_, ?_, ?_⟩
  · rw [htimers]
    exact ha.now
  · rw [htimers, hidle, hended]
    exact ha.timed
  · rw [htimers, hended]
    exact ha.quiet

/-- Clearing the timer of the silence leaves none. -/
theorem Attended.cleared (ha : Attended launch h s) :
    (s.timers.clearTimeout s.idleTimer).pending = [] := by
  cases hended : s.inputEnded with
  | false =>
      obtain ⟨-, handle, hidle, hpending⟩ := ha.timed hended
      simp [Timers.clearTimeout, hidle, hpending]
  | true => simp [Timers.clearTimeout, ha.quiet hended]

theorem closeStdin_attended (hcleared : (s.timers.clearTimeout s.idleTimer).pending = [])
    (hnow : s.timers.now = h.now) : Attended launch h s.closeStdin where
  now := hnow
  timed hopen := by cases hopen
  quiet _ := hcleared

/-- A harness that is heard is given its whole silence again. -/
theorem touch_attended (hcleared : (s.timers.clearTimeout s.idleTimer).pending = [])
    (hnow : s.timers.now = h.now) (hopen : s.inputEnded = false → launch.keepStdinOpen = true)
    (hquiet : s.inputEnded = true → s.timers.pending = []) :
    Attended launch { h with heard := h.now } (s.touch launch) := by
  unfold HarnessRun.touch
  split
  · next hidle =>
      have hended : s.inputEnded = true := by
        by_contra hnot
        have hfalse : s.inputEnded = false := by simpa using hnot
        simp [hopen hfalse, hfalse] at hidle
      exact ⟨hnow, fun hfalse => absurd hended (by simp [hfalse]), hquiet⟩
  · next hsession =>
      have hsession : launch.keepStdinOpen = true ∧ s.inputEnded = false := by simpa using hsession
      refine ⟨hnow, fun _ => ⟨hsession.1, s.timers.next, rfl, ?_⟩, fun hended => ?_⟩
      · show (s.timers.clearTimeout s.idleTimer).pending ++
            [{ handle := s.timers.next, due := s.timers.now + max 0 launch.idleMs, action := () }] = _
        rw [hcleared, hnow]
        rfl
      · exact absurd (hsession.2.symm.trans hended) (by decide)

theorem Attended.touch (ha : Attended launch h s) :
    Attended launch { h with heard := h.now } (s.touch launch) :=
  touch_attended ha.cleared ha.now (fun hopen => (ha.timed hopen).1) ha.quiet

theorem attended_start (launch : McpHarnessLaunch) :
    Attended launch { now := 0, heard := 0 } (.start launch) := by
  unfold HarnessRun.start
  by_cases hopen : launch.keepStdinOpen = true
  · rw [if_pos hopen]
    exact @touch_attended launch { now := 0, heard := 0 } _ rfl rfl (fun _ => hopen) fun _ => rfl
  · rw [if_neg hopen]
    exact closeStdin_attended rfl rfl

end Attending

/-! ## One event -/

namespace HarnessRun

theorem takeSteps_eq (s : HarnessRun) (steps : List HarnessStep) :
    steps.foldl takeStep s = { s with
      messages := (steps.foldl takeStep s).messages
      terminal := (steps.foldl takeStep s).terminal } := by
  induction steps generalizing s with
  | nil => rfl
  | cons step steps ih =>
      rw [List.foldl_cons, takeStep_eq]
      exact ih _

theorem touch_eq (launch : McpHarnessLaunch) (s : HarnessRun) :
    s.touch launch = { s with
      timers := (s.touch launch).timers
      idleTimer := (s.touch launch).idleTimer } := by
  unfold touch
  split <;> rfl

end HarnessRun

/-- What holds of a run after these events. -/
structure HarnessRunKept (launch : McpHarnessLaunch) (protocol : HarnessProtocol)
    (events : List HarnessRunEvent) (s : HarnessRun) : Prop where
  read : HasRead (stepsRead protocol events) s
  attended : Attended launch (hearing events) s
  ended : s.inputEnded = true ↔ launch.keepStdinOpen = false ∨ s.terminal.isSome = true ∨
    (∃ handle, .fires handle ∈ events) ∨ s.exit.isSome = true
  aborted : s.aborted = true ↔ .abort ∈ events

section Events

variable {launch : McpHarnessLaunch} {protocol : HarnessProtocol} {events : List HarnessRunEvent}
  {event : HarnessRunEvent} {s s' : HarnessRun}

theorem hearing_snoc (events : List HarnessRunEvent) (event : HarnessRunEvent) :
    hearing (events ++ [event]) = (hearing events).after event := by
  unfold hearing
  rw [List.foldl_append]
  rfl

theorem stepsRead_snoc (protocol : HarnessProtocol) (events : List HarnessRunEvent)
    (event : HarnessRunEvent) : stepsRead protocol (events ++ [event]) =
      stepsRead protocol events ++ event.frame?.elim [] protocol.interpret := by
  unfold stepsRead
  rw [List.filterMap_append, List.flatMap_append]
  cases h : event.frame? <;> simp [h]

theorem kept_start (launch : McpHarnessLaunch) (protocol : HarnessProtocol) :
    HarnessRunKept launch protocol [] (.start launch) where
  read := hasRead_start launch
  attended := attended_start launch
  ended := by
    unfold HarnessRun.start
    by_cases hopen : launch.keepStdinOpen = true
    · rw [if_pos hopen, HarnessRun.touch_eq]
      simp [hopen]
    · rw [if_neg hopen]
      simp [HarnessRun.closeStdin, hopen]
  aborted := by
    unfold HarnessRun.start
    by_cases hopen : launch.keepStdinOpen = true
    · rw [if_pos hopen, HarnessRun.touch_eq]
      simp
    · rw [if_neg hopen]
      simp [HarnessRun.closeStdin]

/-- An event that is no frame, no timer and no signal leaves the ending as it was. -/
theorem HarnessRunKept.plain (hk : HarnessRunKept launch protocol events s)
    (hframe : event.frame? = none) (hfires : ∀ handle, event ≠ .fires handle)
    (habort : event ≠ .abort) (hattended : Attended launch ((hearing events).after event) s')
    (hmessages : s'.messages = s.messages) (hterminal : s'.terminal = s.terminal)
    (hended : s'.inputEnded = s.inputEnded) (hexit : s'.exit = s.exit)
    (haborted : s'.aborted = s.aborted) :
    HarnessRunKept launch protocol (events ++ [event]) s' := by
  refine ⟨?_, ?_, ?_, ?_⟩
  · rw [stepsRead_snoc, hframe]
    simpa using hk.read.congr hmessages hterminal
  · rw [hearing_snoc]
    exact hattended
  · rw [hended, hterminal, hexit, hk.ended]
    simp [fun handle => Ne.symm (hfires handle)]
  · rw [haborted, hk.aborted]
    simp [Ne.symm habort]

theorem HarnessRunKept.frame (hk : HarnessRunKept launch protocol events s) (hexit : s.exit = none)
    {text : JsString} {frame : Json} (hline : readLine text = .frame frame) :
    HarnessRunKept launch protocol (events ++ [.line text]) (s.onFrame launch protocol frame) := by
  have hframe : (HarnessRunEvent.line text).frame? = some frame := by
    simp [HarnessRunEvent.frame?, hline, HarnessLine.frame?]
  have hheard : (hearing events).after (.line text) = { hearing events with
      heard := (hearing events).now } := by
    simp [Hearing.after, HarnessRunEvent.heard, hline, HarnessLine.frame?]
  have hread := @HasRead.takeSteps _ (protocol.interpret frame) _ hk.read
  have heq := s.takeSteps_eq (protocol.interpret frame)
  have htook : Attended launch (hearing events)
      ((protocol.interpret frame).foldl HarnessRun.takeStep s) := by
    rw [heq]
    exact hk.attended.congr rfl rfl rfl
  -- whether or not the frame ended the turn, silence begins again
  generalize hs₁ : (protocol.interpret frame).foldl HarnessRun.takeStep s = s₁ at hread heq htook
  have hs₂ : ∃ s₂, (if s₁.terminal.isSome then s₁.closeStdin else s₁) = s₂ ∧
      Attended launch (hearing events) s₂ ∧ s₂.messages = s₁.messages ∧
      s₂.terminal = s₁.terminal ∧ s₂.exit = s.exit ∧ s₂.aborted = s.aborted ∧
      (s₂.inputEnded = true ↔ s.inputEnded = true ∨ s₁.terminal.isSome = true) := by
    refine ⟨_, rfl, ?_⟩
    by_cases hended : s₁.terminal.isSome = true
    · rw [if_pos hended]
      refine ⟨closeStdin_attended htook.cleared htook.now, rfl, rfl, ?_, ?_, ?_⟩
      · show s₁.exit = s.exit
        rw [heq]
      · show s₁.aborted = s.aborted
        rw [heq]
      · exact iff_of_true rfl (.inr hended)
    · rw [if_neg hended]
      refine ⟨htook, rfl, rfl, by rw [heq], by rw [heq], ?_⟩
      rw [or_iff_left hended, heq]
  obtain ⟨s₂, hclosed, hattended, hmessages, hterminal, hexit₂, haborted, hinput⟩ := hs₂
  have honframe : s.onFrame launch protocol frame = s₂.touch launch := by
    unfold HarnessRun.onFrame
    rw [hs₁]
    show (if s₁.terminal.isSome then s₁.closeStdin else s₁).touch launch = _
    rw [hclosed]
  rw [honframe]
  have htouch := s₂.touch_eq launch
  refine ⟨?_, ?_, ?_, ?_⟩
  · rw [stepsRead_snoc, hframe, htouch]
    exact hread.congr hmessages hterminal
  · rw [hearing_snoc, hheard]
    exact hattended.touch
  · rw [htouch]
    show s₂.inputEnded = true ↔ _ ∨ s₂.terminal.isSome = true ∨ _ ∨ s₂.exit.isSome = true
    rw [hinput, hk.ended, hterminal, hexit₂, hexit]
    -- an ending that was declared before is still declared
    have hold : s.terminal.isSome = true → s₁.terminal.isSome = true := by
      intro hsome
      obtain ⟨outcome, houtcome⟩ := Option.isSome_iff_exists.mp hsome
      rw [Option.isSome_iff_ne_none, Ne, hread.undecided]
      intro hnone
      have hbefore := hk.read.undecided.mpr fun step hstep =>
        hnone step (List.mem_append_left _ hstep)
      rw [houtcome] at hbefore
      cases hbefore
    constructor
    · rintro ((hkeep | hterm | hidle | hgone) | hterm)
      · exact .inl hkeep
      · exact .inr (.inl (hold hterm))
      · obtain ⟨handle, hmem⟩ := hidle
        exact .inr (.inr (.inl ⟨handle, List.mem_append_left _ hmem⟩))
      · cases hgone
      · exact .inr (.inl hterm)
    · rintro (hkeep | hterm | ⟨handle, hmem⟩ | hgone)
      · exact .inl (.inl hkeep)
      · exact .inr hterm
      · refine .inl (.inr (.inr (.inl ⟨handle, ?_⟩)))
        simpa using hmem
      · cases hgone
  · rw [htouch]
    show s₂.aborted = true ↔ _
    rw [haborted, hk.aborted]
    simp

theorem HarnessRunKept.fires (hk : HarnessRunKept launch protocol events s)
    {handle : ℕ} {fired : Unit × Timers ℚ Unit} (hfire : s.timers.fire handle = some fired) :
    HarnessRunKept launch protocol (events ++ [.fires handle])
      (({ s with timers := fired.2 }).diagnosed (.silent launch.idleMs)).closeStdin := by
  obtain ⟨action, timers⟩ := fired
  obtain ⟨timer, hpending, -, -, -, rfl⟩ := Timers.fire_eq hfire
  refine ⟨?_, ?_, ?_, ?_⟩
  · rw [stepsRead_snoc, show (HarnessRunEvent.fires handle).frame? = none from rfl, Option.elim_none,
      List.append_nil]
    exact hk.read.congr rfl rfl
  · rw [hearing_snoc]
    refine closeStdin_attended ?_ hk.attended.now
    -- what is left was pending before, and that is cleared
    have hnone := List.filter_eq_nil_iff.mp hk.attended.cleared
    exact List.filter_eq_nil_iff.mpr fun other hother => hnone other (List.mem_of_mem_filter hother)
  · exact iff_of_true rfl (.inr (.inr (.inl ⟨handle, by simp⟩)))
  · show s.aborted = true ↔ _
    rw [hk.aborted]
    simp

/-- **One event.** -/
theorem HarnessRunKept.step (hk : HarnessRunKept launch protocol events s)
    (h : s.step launch protocol event = some s') :
    HarnessRunKept launch protocol (events ++ [event]) s' := by
  unfold HarnessRun.step at h
  split at h
  · cases h
  next hrunning =>
  have hexit : s.exit = none := by simpa using hrunning
  cases event with
  | line text =>
      simp only at h
      split at h
      · next frame hline =>
          obtain rfl := Option.some.inj h
          exact hk.frame hexit hline
      · next said hline =>
          obtain rfl := Option.some.inj h
          -- only a frame winds the idle timer up again
          have hunheard : (hearing events).after (.line text) = hearing events := by
            simp [Hearing.after, HarnessRunEvent.heard, hline, HarnessLine.frame?]
          refine hk.plain ?_ (by simp) (by simp) ?_ rfl rfl rfl rfl rfl
          · simp [HarnessRunEvent.frame?, hline, HarnessLine.frame?]
          · rw [hunheard]
            exact hk.attended.congr rfl rfl rfl
      · next hline =>
          obtain rfl := Option.some.inj h
          have hunheard : (hearing events).after (.line text) = hearing events := by
            simp [Hearing.after, HarnessRunEvent.heard, hline, HarnessLine.frame?]
          refine hk.plain ?_ (by simp) (by simp) ?_ rfl rfl rfl rfl rfl
          · simp [HarnessRunEvent.frame?, hline, HarnessLine.frame?]
          · rw [hunheard]
            exact hk.attended
  | stderr text =>
      obtain rfl := Option.some.inj h
      have hsaid : Attended launch (hearing events) (s.diagnosed (.said text)) :=
        hk.attended.congr rfl rfl rfl
      -- so does what the process says on the side
      rw [HarnessRun.touch_eq]
      refine hk.plain rfl (by simp) (by simp) ?_ rfl rfl rfl rfl rfl
      rw [← HarnessRun.touch_eq]
      exact hsaid.touch
  | elapse instant =>
      obtain ⟨timers, htimers, rfl⟩ := Option.map_eq_some_iff.mp h
      obtain ⟨hnow, -, hpending⟩ := Timers.elapse_eq htimers
      refine hk.plain rfl (by simp) (by simp) ⟨hnow, ?_, ?_⟩ rfl rfl rfl rfl rfl
      · show s.inputEnded = false → launch.keepStdinOpen = true ∧ ∃ handle, s.idleTimer = some handle ∧
          timers.pending = [{ handle, due := (hearing events).heard + max 0 launch.idleMs, action := () }]
        rw [hpending]
        exact hk.attended.timed
      · show s.inputEnded = true → timers.pending = []
        rw [hpending]
        exact hk.attended.quiet
  | fires handle =>
      obtain ⟨fired, hfire, rfl⟩ := Option.map_eq_some_iff.mp h
      exact hk.fires hfire
  | abort =>
      obtain rfl := Option.some.inj h
      refine ⟨?_, ?_, ?_, ?_⟩
      · rw [stepsRead_snoc, show HarnessRunEvent.abort.frame? = none from rfl, Option.elim_none,
          List.append_nil]
        exact hk.read.congr rfl rfl
      · rw [hearing_snoc]
        exact hk.attended.congr rfl rfl rfl
      · rw [show ({ s with aborted := true } : HarnessRun).inputEnded = s.inputEnded from rfl, hk.ended]
        simp
      · exact iff_of_true rfl (by simp)
  | exited exit =>
      obtain rfl := Option.some.inj h
      refine ⟨?_, ?_, ?_, ?_⟩
      · rw [stepsRead_snoc, show (HarnessRunEvent.exited exit).frame? = none from rfl,
          Option.elim_none, List.append_nil]
        exact hk.read.congr rfl rfl
      · rw [hearing_snoc]
        have hclosed : Attended launch (hearing events) s.closeStdin :=
          closeStdin_attended hk.attended.cleared hk.attended.now
        exact hclosed.congr rfl rfl rfl
      · exact iff_of_true rfl (.inr (.inr (.inr rfl)))
      · show s.aborted = true ↔ _
        rw [hk.aborted]
        simp

theorem run_kept (h : run (HarnessRun.step launch protocol) (.start launch) events = some s) :
    HarnessRunKept launch protocol events s := by
  induction events using List.reverseRecOn generalizing s with
  | nil =>
      obtain rfl := Option.some.inj h
      exact kept_start launch protocol
  | append_singleton events event ih =>
      obtain ⟨before, hbefore, hstep⟩ := run_snoc.mp h
      exact (ih hbefore).step hstep

end Events

/-! ## A whole run -/

/-- The same protocol, with no call read from its frames. -/
def HarnessProtocol.withoutCalls (protocol : HarnessProtocol) : HarnessProtocol :=
  { protocol with interpret := fun frame =>
      (protocol.interpret frame).filter fun step => !step.isToolCall }

theorem foldl_takeStep_withoutCalls (s : HarnessRun) (steps : List HarnessStep) :
    (steps.filter fun step => !step.isToolCall).foldl HarnessRun.takeStep s =
      steps.foldl HarnessRun.takeStep s := by
  induction steps generalizing s with
  | nil => rfl
  | cons step steps ih => cases step <;> exact ih _

theorem step_withoutCalls (launch : McpHarnessLaunch) (protocol : HarnessProtocol) :
    HarnessRun.step launch protocol.withoutCalls = HarnessRun.step launch protocol := by
  have hframe : ∀ (s : HarnessRun) frame,
      s.onFrame launch protocol.withoutCalls frame = s.onFrame launch protocol frame := by
    intro s frame
    unfold HarnessRun.onFrame HarnessProtocol.withoutCalls
    rw [foldl_takeStep_withoutCalls]
  funext s event
  simp only [HarnessRun.step, hframe]

/-- What the run comes to, of what was read and how the process ended. -/
def ComesTo (id : String) (steps : List HarnessStep) :
    HarnessExit → AgentTurnCandidate → Prop
  | .error, outcome => outcome =
      HarnessRun.failed "harness_not_started" ("The " ++ id ++ " CLI could not be started.")
  | .code code, outcome =>
      Declares steps outcome ∨ (∀ step ∈ steps, step.ends = false) ∧ outcome =
        if code = some 0 then .complete (textOutput (joinLines (prose steps))) none
        else HarnessRun.failed "harness_exited_without_outcome" ("The " ++ id ++
          " CLI exited with code " ++ HarnessRun.exitText code ++ " without completing the turn.")

/-- What a run of a harness process is held to. -/
structure HarnessRunFollows (launch : McpHarnessLaunch) (protocol : HarnessProtocol)
    (events : List HarnessRunEvent) (s : HarnessRun) : Prop where
  /-- The first ending declared is the turn's, and the exit decides where there is none. -/
  outcome : ∀ id exit outcome, s.outcome id exit = .ok outcome ↔
    .abort ∉ events ∧ ComesTo id (stepsRead protocol events) exit outcome
  /-- The input is open until the turn has ended, the harness has been silent, or is gone. -/
  session : s.inputEnded = false ↔ launch.keepStdinOpen = true ∧
    (∀ step ∈ stepsRead protocol events, step.ends = false) ∧
    (∀ handle, .fires handle ∉ events) ∧ s.exit = none
  /-- Silence ends it after exactly so long, and before nothing else had. -/
  patient : ∀ before handle after, events = before ++ .fires handle :: after →
    (hearing before).now = (hearing before).heard + max 0 launch.idleMs ∧
      launch.keepStdinOpen = true ∧ ∀ step ∈ stepsRead protocol before, step.ends = false
  /-- It never lasts longer while the input is open. -/
  prompt : s.inputEnded = false →
    (hearing events).now ≤ (hearing events).heard + max 0 launch.idleMs
  /-- No timer outlives the session. -/
  quiet : s.inputEnded = true → s.timers.pending = []
  /-- A call read from the output is passed by. -/
  calls : run (HarnessRun.step launch protocol.withoutCalls) (.start launch) events = some s

section Runs

variable {launch : McpHarnessLaunch} {protocol : HarnessProtocol} {events : List HarnessRunEvent}
  {s : HarnessRun}

theorem HasRead.outcome {steps : List HarnessStep} (h : HasRead steps s) (id : String)
    (exit : HarnessExit) (outcome : AgentTurnCandidate) :
    s.outcome id exit = .ok outcome ↔ s.aborted = false ∧ ComesTo id steps exit outcome := by
  unfold HarnessRun.outcome
  by_cases haborted : s.aborted = true
  · simp [haborted]
  · rw [if_neg haborted]
    have hrunning : s.aborted = false := by simpa using haborted
    rw [and_iff_right hrunning]
    cases exit with
    | error => simp [ComesTo, eq_comm]
    | code code =>
        simp only [ComesTo]
        rw [← h.decided, ← h.undecided]
        cases hterminal : s.terminal with
        | some terminal => simp
        | none =>
            rw [h.messages]
            by_cases hcode : code = some 0
            · simp [hcode, eq_comm]
            · simp [hcode, eq_comm]

theorem HarnessRunKept.session (hk : HarnessRunKept launch protocol events s) :
    s.inputEnded = false ↔ launch.keepStdinOpen = true ∧
      (∀ step ∈ stepsRead protocol events, step.ends = false) ∧
      (∀ handle, .fires handle ∉ events) ∧ s.exit = none := by
  have hended := not_congr hk.ended
  rw [Bool.not_eq_true] at hended
  rw [hended, ← hk.read.undecided]
  simp

end Runs

namespace HarnessRun.Sample

/-- Every frame is prose. -/
def protocol : HarnessProtocol where
  interpret _ := [.message "working"]
  encodeToolResult _ := .null

/-- A session that is heard once, and then falls silent. -/
def launch : McpHarnessLaunch where
  stdin := some ("{}" : JsString)
  keepStdinOpen := true
  idleTimeoutMs := none

/-- A line, a minute, and then silence until the idle time is up. -/
def events : List HarnessRunEvent :=
  [.elapse 60000, .line "{}", .elapse 180000, .fires 1, .exited (.code (some 0))]

/-- What the run comes to. -/
def ended : HarnessRun := (run (step launch protocol) (.start launch) events).getD (.start launch)

end HarnessRun.Sample

end SharedOS.Adapters
