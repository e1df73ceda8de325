/-
SharedOS.Runtime.StandardLoop — the loop of the standard runtime, with one driver seated.

One run of the plugin as a machine. Its labels are what the outside may do at any moment: the turn's
signal and the draining signal fire, a promise the loop holds settles, the close of a session ends.
A settled promise is heard in a reaction, and the loop goes on in another, each a step of its own, so
a signal may fire between any two of them.

A synchronous stretch of the source is one step. What it calls on the way may throw, and the label
says whether it does.
-/
import SharedOS.Foundation.Race
import SharedOS.Foundation.Run
import SharedOS.Runtime.TurnDecision

namespace SharedOS.Runtime

open SharedOS.Foundation SharedOS.Contracts

/-! ## State -/

/-- `ExecutionResult["status"]`. -/
inductive ExecutionResultStatus where
  | succeeded
  | denied
  | failed
  | cancelled
  | escalated
  deriving DecidableEq

/-- What the loop reads of the session a driver opened. -/
structure AgentTurnSession where
  promptHash : Option JsString
  /-- Whether the session has a `close`. -/
  closable : Bool

/-- What the session is asked with. -/
inductive AgentTurnInput where
  | start
  | toolResult (result : ToolResult)

/-- What `run` comes to. -/
inductive LoopReport where
  | returned (outcome : RuntimeTurnOutcome) (metadata : Option Json)
  | threw

/-- How the turn ended, as the report tells it. What the loop throws on is a cancellation. -/
def LoopReport.status : LoopReport → ExecutionResultStatus
  | .returned (.complete _) _ => .succeeded
  | .returned (.fail _) _ => .failed
  | .returned (.escalate _) _ => .escalated
  | .threw => .cancelled

/-- What the loop did, in order, between what it saw happen. -/
inductive LoopEvent where
  | annotated (key : JsString) (value : Json)
  /-- `session.next` was called. -/
  | asked (input : AgentTurnInput)
  /-- What `session.next` returned has settled. -/
  | decided
  | invoked (call : ToolCall) (step : ℕ)
  /-- The draining signal has fired. -/
  | drained
  /-- `session.close` was called. -/
  | closed (outcome : ExecutionResultStatus)

/-- What the loop is waiting for. -/
inductive LoopPoint where
  | fresh
  | opening
  | deciding (step : ℕ)
  | calling (step : ℕ) (answer : Option (Except Unit ToolResult))
  | closing (report : LoopReport) (ended : Bool)
  | reported (report : LoopReport)

/-- What the loop holds, and what it has done. -/
structure LoopState where
  /-- `signal.aborted` -/
  signal : Bool
  /-- `host.draining?.aborted` -/
  draining : Option Bool
  /-- `opening`, and the wait for it. -/
  opening : Option (Race AgentTurnSession)
  session : Option AgentTurnSession
  /-- What `session.next` returned last, and the wait for it. -/
  decision : Option (Race AgentTurnCandidate)
  point : LoopPoint
  /-- What a session that comes too late is to be closed with. -/
  late : Option ExecutionResultStatus
  log : List LoopEvent

/-- Before `run` is called. Either signal may have fired. -/
def LoopState.initial (signal : Bool) (draining : Option Bool) : LoopState where
  signal := signal
  draining := draining
  opening := none
  session := none
  decision := none
  point := .fresh
  late := none
  log := if draining = some true then [.drained] else []

/-- Whether the calls a stretch of the loop makes go through. -/
structure LoopHooks where
  /-- `host.annotate` does not throw. -/
  annotates : Bool
  /-- `session.next` or `host.invokeTool` returns a promise. -/
  answers : Bool

/-- What may happen next: a signal, a settlement, or the loop going on. -/
inductive LoopLabel where
  /-- `run` is called, and the driver's `open` returns a promise, or throws. -/
  | run (opens : Bool)
  | signalFires
  | drainingFires
  | openingSettles (result : Except Unit AgentTurnSession)
  | openingReacts
  | opened (hooks : LoopHooks)
  | decisionSettles (result : Except Unit AgentTurnCandidate)
  | decisionReacts
  | decided (hooks : LoopHooks)
  | toolSettles (result : Except Unit ToolResult)
  | called (hooks : LoopHooks)
  /-- What `session.close` returned has settled, or its time is up, or it threw. -/
  | closeEnds
  | closed
  | lateReacts

/-- `protocolError` as the loop uses it. -/
def loopError (code message : JsString) (retryable : Option Bool := none) : ProtocolError where
  code := code
  message := message
  retryable := retryable
  details := none

/-- What a decision that breaks the rules is reported as. -/
def invalidDriverDecision (message : JsString) : LoopReport :=
  .returned (.fail (loopError "invalid_driver_decision" message)) none

/-- `escalationAskedAnnotation`. -/
def escalationAskedAnnotation (reason : JsString) : Json :=
  .obj [("tool", .str "sharedos.escalate"), ("reason", .str reason)]

namespace LoopState

/-- One event more in the log. -/
def record (s : LoopState) (event : LoopEvent) : LoopState := { s with log := s.log ++ [event] }

/-! ## Ways out -/

/-- `closeSession` up to its first await. -/
def closeSession (s : LoopState) (outcome : ExecutionResultStatus) (report : LoopReport) :
    LoopState :=
  if s.session.any AgentTurnSession.closable then
    { s.record (.closed outcome) with point := .closing report false }
  else { s with point := .closing report true }

/-- The `finally`: a session the loop never received is closed when it comes. -/
def finish (s : LoopState) (closeOutcome : ExecutionResultStatus) (report : LoopReport) :
    LoopState :=
  if s.session.isNone ∧ s.opening.isSome then
    { s with late := some closeOutcome }.closeSession closeOutcome report
  else s.closeSession closeOutcome report

/-- The `catch`: a turn that is ending was cancelled, and otherwise the driver failed. -/
def caught (s : LoopState) : LoopState :=
  if s.signal = true ∨ s.draining = some true then s.finish .cancelled .threw
  else
    s.finish .failed
      (.returned (.fail (loopError "driver_failed" "The agent turn driver failed." (some true)))
        none)

/-! ## The loop -/

/-- Ask the session for a decision. -/
def ask (s : LoopState) (step : ℕ) (input : AgentTurnInput) (answers : Bool) : LoopState :=
  let s := s.record (.asked input)
  if answers then { s with decision := some (.start s.signal), point := .deciding step }
  else { s.record .decided with decision := some .threw }.caught

/-- The head of the loop: within the limit, and not draining. -/
def head (maxSteps : ℕ) (s : LoopState) (step : ℕ) (input : AgentTurnInput) (answers : Bool) :
    LoopState :=
  if step < maxSteps then
    if s.draining = some true then s.caught else s.ask step input answers
  else
    s.finish .failed
      (.returned (.fail (loopError "step_limit_exceeded"
        "The agent turn reached its maximum number of steps.")) none)

/-- The session is there. -/
def received (maxSteps : ℕ) (s : LoopState) (session : AgentTurnSession) (hooks : LoopHooks) :
    LoopState :=
  let s := { s with session := some session }
  match session.promptHash with
  | none => s.head maxSteps 0 .start hooks.answers
  | some promptHash =>
    if hooks.annotates then
      (s.record (.annotated "promptHash" (.str promptHash))).head maxSteps 0 .start hooks.answers
    else s.caught

/-- A call is handed to the host, at the step it declares or at the loop's own. -/
def invoke (s : LoopState) (step : ℕ) (call : ToolCall) (declared : Option ℕ) (answers : Bool) :
    LoopState :=
  let s := s.record (.invoked call (declared.getD step))
  if answers then { s with point := .calling step none } else s.caught

/-- The decision is there. -/
def decide [HostPlatform] (s : LoopState) (step : ℕ) (candidate : AgentTurnCandidate)
    (hooks : LoopHooks) : LoopState :=
  match parseAgentTurnDecision candidate with
  | none =>
    s.finish .failed
      (invalidDriverDecision "The agent turn driver returned an invalid decision.")
  | some (.complete output metadata) =>
    s.finish .succeeded (.returned (.complete output) metadata)
  | some (.fail error metadata) => s.finish .failed (.returned (.fail error) metadata)
  | some (.escalate reason metadata) =>
    if hooks.annotates then
      let asked := escalationAskedAnnotation reason
      (s.record (.annotated "escalationAsked" asked)).finish .escalated
        (.returned (.escalate reason) metadata)
    else s.caught
  | some (.toolCall call declared) =>
    -- a declared step reaches forward only
    if declared.any fun declared => declared < step then
      s.finish .failed
        (invalidDriverDecision
          "The agent turn driver declared a step behind the loop's own position.")
    else s.invoke step call declared hooks.answers

/-- The answer of a call is there. -/
def answered (maxSteps : ℕ) (s : LoopState) (step : ℕ) (result : ToolResult) (answers : Bool) :
    LoopState :=
  if s.draining = some true then s.caught
  else s.head maxSteps (step + 1) (.toolResult result) answers

/-- The loop goes on behind the opening. -/
def resumeOpened (maxSteps : ℕ) (s : LoopState) (hooks : LoopHooks) : Option LoopState :=
  match s.point, s.opening.bind Race.waited with
  | .opening, some (.settled (.ok session)) => some (s.received maxSteps session hooks)
  | .opening, some _ => some s.caught
  | _, _ => none

/-- The loop goes on behind a decision. -/
def resumeDecided [HostPlatform] (s : LoopState) (hooks : LoopHooks) : Option LoopState :=
  match s.point, s.decision.bind Race.waited with
  | .deciding step, some (.settled (.ok candidate)) => some (s.decide step candidate hooks)
  | .deciding _, some _ => some s.caught
  | _, _ => none

/-- The loop goes on behind a call. -/
def resumeCalled (maxSteps : ℕ) (s : LoopState) (hooks : LoopHooks) : Option LoopState :=
  match s.point with
  | .calling step (some (.ok result)) => some (s.answered maxSteps step result hooks.answers)
  | .calling _ (some (.error _)) => some s.caught
  | _ => none

/-- A session that came too late is closed. -/
def reactLate (s : LoopState) : Option LoopState :=
  match s.late, s.opening.bind Race.work with
  | some outcome, some (.ok session) =>
    some (if session.closable then { s.record (.closed outcome) with late := none }
      else { s with late := none })
  | some _, some (.error _) => some { s with late := none }
  | _, _ => none

/-- The machine of `StandardLoop.run`. -/
def step [HostPlatform] (maxSteps : ℕ) (s : LoopState) : LoopLabel → Option LoopState
  | .run opens =>
    match s.point with
    | .fresh =>
      some (if opens then { s with opening := some (.start s.signal), point := .opening }
        else s.caught)
    | _ => none
  | .signalFires =>
    if s.signal then none
    else
      some
        { s with
          signal := true
          opening := s.opening.map Race.abandon
          decision := s.decision.map Race.abandon }
  | .drainingFires =>
    if s.draining = some false then some { s.record .drained with draining := some true } else none
  | .openingSettles result =>
    (s.opening.bind fun race => race.settle result).map fun race => { s with opening := some race }
  | .openingReacts =>
    (s.opening.bind Race.react).map fun race => { s with opening := some race }
  | .opened hooks => s.resumeOpened maxSteps hooks
  | .decisionSettles result =>
    (s.decision.bind fun race => race.settle result).map fun race =>
      { s.record .decided with decision := some race }
  | .decisionReacts =>
    (s.decision.bind Race.react).map fun race => { s with decision := some race }
  | .decided hooks => s.resumeDecided hooks
  | .toolSettles result =>
    match s.point with
    | .calling step none => some { s with point := .calling step (some result) }
    | _ => none
  | .called hooks => s.resumeCalled maxSteps hooks
  | .closeEnds =>
    match s.point with
    | .closing report false => some { s with point := .closing report true }
    | _ => none
  | .closed =>
    match s.point with
    | .closing report true => some { s with point := .reported report }
    | _ => none
  | .lateReacts => s.reactLate

end LoopState

end SharedOS.Runtime
