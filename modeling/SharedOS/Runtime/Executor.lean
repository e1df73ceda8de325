/-
SharedOS.Runtime.Executor — the envelope around one turn of a replaceable runtime plugin.

One turn as a machine. Its labels are what the outside may do at any moment: the caller's signal and
the timers, the kernel's answers to the envelope's own calls, whatever the plugin asks of its host,
and, for each mediated call, the next answer its `invokeTool` gets. A mediated call carries the rest
of its kernel operation, so calls interleave operation by operation. Between a kernel promise's
settling and the call's own answer lie two reactions of the envelope, each a step of its own.

A synchronous stretch of the source is one step, its hooks taken not to call back. The step function
is executable: where the source would not go on, there is no next state.
-/
import SharedOS.Contracts.Execution
import SharedOS.Kernel.InvokeTool
import SharedOS.Kernel.PublishedTool
import SharedOS.Runtime.TurnDeadlines

namespace SharedOS.Runtime

open SharedOS.Foundation SharedOS.Contracts SharedOS.Core SharedOS.Kernel

variable [HostPlatform]

/-! ## State -/

/-- An executor: its kernel and the defaults of a turn that brings none. -/
structure SharedOSExecutor where
  kernel : SharedOSKernel
  defaultMaxSteps : ℕ
  defaultMaxToolCalls : Option ℕ
  drainGraceMs : ℕ

/-- One run of `execute`. -/
structure Turn where
  executor : SharedOSExecutor
  request : ExecutionRequest
  /-- The catalogue held by the turn's lease, from which `listTools` and every call are served. -/
  catalogue : ToolRegistry

/-- Where a mediated call is. -/
inductive CallStage where
  /-- Refused by the envelope; the refusal is being recorded. -/
  | refused (result : ToolResult)
  /-- With the kernel, which has this left to do. -/
  | withKernel (rest : KernelM ToolResult)
  /-- Settled, and seen by `watchAudit`. -/
  | watched (settled : Except Thrown ToolResult) (isOutage : Bool)
  /-- Settled, and accounted for. -/
  | accounted (settled : Except Thrown ToolResult)

/-- One call of the plugin, from its check to its settlement. -/
structure MediatedCall where
  call : ToolCall
  step : Option ℕ
  context : AccessContext
  repeatable : Bool
  /-- What its kernel operation has asked and been answered. -/
  trace : KernelTrace
  stage : CallStage
  /-- What `host.invokeTool` came to. -/
  answer : Option (Except Thrown ToolResult)

/-- What the envelope keeps about the turn's calls. -/
structure CallLedger where
  toolCallCount : ℕ
  steps : List ℕ
  effectPossible : Bool
  writesWithKernel : ℕ
  calls : List MediatedCall

/-- A call the envelope refused, as it asks the kernel to record it. -/
structure RefusedCall where
  context : AccessContext
  callId : JsString
  tool : JsString
  reasonCode : JsString
  cause : Option JsString

/-- What the turn body is waiting for. -/
inductive TurnPhase where
  | fresh
  | opening
  | admitting
  | reaching
  | listing
  | running
  | escalating
  /-- The turn is ending, and these calls are not back. -/
  | draining (inFlight : List ℕ)
  | closed
  deriving DecidableEq

/-- What a turn has come to: its phase and signals, the events so far, and what its calls did. -/
structure TurnState where
  phase : TurnPhase
  deadlines : TurnDeadlines
  events : List ExecutionEvent
  auditOutage : Option AuditEffect
  effectiveTools : List ToolDefinition
  ledger : CallLedger
  /-- What `kernel.recordRefusedCall` has been asked for. -/
  refusals : List RefusedCall
  result : Option ExecutionResult

/-- A turn before its context is checked. -/
def TurnState.initial (turn : Turn) : TurnState where
  phase := .fresh
  deadlines := .create turn.executor.drainGraceMs
  events := []
  auditOutage := none
  effectiveTools := []
  ledger :=
    { toolCallCount := 0, steps := [], effectPossible := false, writesWithKernel := 0, calls := [] }
  refusals := []
  result := none

/-! ## Small parts -/

/-- An error as a result carries it. -/
def protocolError (code message : JsString) (retryable : Bool) : ProtocolError where
  code := code
  message := message
  retryable := some retryable
  details := none

/-- The context at an instant. -/
def contextAt (context : AccessContext) (now : JsString) : AccessContext := { context with now }

/-- The request's id over any the context arrived with. -/
def Turn.executionContext (turn : Turn) : AccessContext :=
  { turn.request.context with executionId := some turn.request.executionId }

/-- The request's own limit, or the executor's default. -/
def Turn.maxSteps (turn : Turn) : ℕ :=
  (turn.request.options.bind ExecutionOptions.maxSteps).getD turn.executor.defaultMaxSteps

/-- The request's own limit, the executor's, or the limit of steps. -/
def Turn.maxToolCalls (turn : Turn) : ℕ :=
  ((turn.request.options.bind ExecutionOptions.maxToolCalls).or
    turn.executor.defaultMaxToolCalls).getD turn.maxSteps

/-- `validateTurnContext`: the first thing in the request that does not fit its context. -/
def validateTurnContext (request : ExecutionRequest) : Option ProtocolError :=
  if !addressesEqual request.context.actor request.agent then
    some (protocolError "actor_mismatch" "Access actor does not match the executing agent." false)
  else if !addressesEqual request.message.receiver request.agent then
    some (protocolError "receiver_mismatch" "Message receiver does not match the executing agent."
      false)
  else if request.message.traceId ≠ request.context.traceId ∨
      request.message.purpose ≠ request.context.purpose then
    some (protocolError "message_context_mismatch"
      "Message trace or purpose does not match the access context." false)
  else none

/-- Whether a second run of the tool repeats nothing. -/
def isSafeToRepeat (definition : ToolDefinition) : Bool :=
  definition.readWrite = .read || definition.annotations.any fun a => a.idempotent = some true

/-- `stepIsWithinBudget`: a step below the limit, new only while there is room. -/
def stepIsWithinBudget (step : ℕ) (seen : List ℕ) (maxSteps : ℕ) : Bool :=
  step < maxSteps && (step ∈ seen || seen.length < maxSteps)

/-- A declared step. A negative one throws, and so does one that is no integer. -/
def parseRuntimeStep : Option ℤ → Option (Option ℕ)
  | none => some none
  | some step => if step < 0 then none else some (some step.toNat)

/-- `ESCALATION_TOOL_NAME`. -/
def escalationToolName : JsString := "sharedos.escalate"

/-- `escalationOffered`: the turn's catalogue has the affordance. -/
def escalationOffered (tools : List ToolDefinition) : Bool :=
  tools.any fun tool => tool.name = escalationToolName

namespace TurnState

/-- `emit`: events are numbered as they come. -/
def emit (s : TurnState) (data : ExecutionEventData) : TurnState :=
  { s with events := s.events ++ [{ sequence := s.events.length, data }] }

/-- `safeToRetry`: no call may have taken an effect, and none is out that could. -/
def safeToRetry (s : TurnState) : Bool :=
  !s.ledger.effectPossible && s.ledger.writesWithKernel = 0

/-- `assertRuntimeHostActive`. -/
def hostActive (s : TurnState) : Bool := s.phase ≠ .closed && s.deadlines.aborted.isNone

/-- `watchAudit`: note the first audit outage. -/
def watchAudit (s : TurnState) : Thrown → TurnState
  | .auditUnavailable effect => { s with auditOutage := s.auditOutage.or (some effect) }
  | .other => s

/-- The mediated calls the turn has not seen the end of. -/
def inFlight (s : TurnState) : List ℕ :=
  (List.range s.ledger.calls.length).filter fun i =>
    s.ledger.calls[i]?.any fun c => c.answer.isNone

/-! ## Endings -/

/-- Build the result and close the turn. -/
def endTurn (turn : Turn) (s : TurnState) (ending : TurnEnding) : TurnState :=
  { s with
    phase := .closed
    deadlines := s.deadlines.close
    result := some
      { executionId := turn.request.executionId
        traceId := turn.request.context.traceId
        ending
        events := s.events } }

/-- The ending of a turn that was aborted. -/
def turnCancelled (retryable : Bool) : TurnEnding :=
  .cancelled (protocolError "turn_cancelled" "The agent turn was cancelled." retryable)

/-- The endings of the turn body's catch. -/
def endCaught (turn : Turn) (s : TurnState) : TurnState :=
  if s.auditOutage.isSome then
    (s.emit (.turnFailed auditUnavailableCode .envelope)).endTurn turn
      (.failed (protocolError auditUnavailableCode
        "The audit sink could not record a decision, so the turn was ended." s.safeToRetry))
  else if s.deadlines.draining then
    (s.emit .turnCancelled).endTurn turn (turnCancelled s.safeToRetry)
  else
    (s.emit (.turnFailed "runtime_failed" .envelope)).endTurn turn
      (.failed (protocolError "runtime_failed" "The runtime plugin failed." s.safeToRetry))

/-- Something the turn body awaited was thrown. -/
def caught (turn : Turn) (s : TurnState) : TurnState :=
  if s.deadlines.draining ∧ s.deadlines.aborted.isNone ∧ s.inFlight ≠ [] then
    -- the calls out there are given until the signal
    { s with phase := .draining s.inFlight }
  else s.endCaught turn

/-- `deniedResult`: the turn is refused before its plugin runs. -/
def denyTurn (turn : Turn) (s : TurnState) (error : ProtocolError) : TurnState :=
  (s.emit (.turnDenied error.code)).endTurn turn (.denied error)

/-- The envelope's own refusal of what the plugin returned. -/
def failTurn (turn : Turn) (s : TurnState) (code message : JsString) : TurnState :=
  (s.emit (.turnFailed code .envelope)).endTurn turn (.failed (protocolError code message false))

/-! ## The turn body -/

/-- Up to the first await. A caller's signal that had fired is folded in first. -/
def start (turn : Turn) (s : TurnState) (parent : Option Thrown) : TurnState :=
  match validateTurnContext turn.request with
  | some error => s.denyTurn turn error
  | none =>
    match parent with
    | some reason =>
      { s with deadlines := s.deadlines.abort reason }.endTurn turn (turnCancelled true)
    | none => { s with phase := .opening }

/-- `openTurnAuthority` answered, and only a refusal as already running is read here. -/
def opened (turn : Turn) (s : TurnState) : Except (Option Thrown) Unit → TurnState
  | .ok () => { s with phase := .admitting }
  | .error none =>
    s.denyTurn turn
      (protocolError "execution_in_progress" "An execution with this id is still running." false)
  | .error (some e) => (s.watchAudit e).caught turn

/-- The code of a refusal, or none where the agent may be invoked. -/
def admitted (turn : Turn) (s : TurnState) : Except Thrown (Option JsString) → TurnState
  | .ok none => { s with phase := .reaching }
  | .ok (some reasonCode) =>
    s.denyTurn turn (protocolError reasonCode
      "The access context does not grant permission to invoke this agent." false)
  | .error e => (s.watchAudit e).caught turn

/-- `reach` answered. -/
def reached (turn : Turn) (s : TurnState) : Except Thrown Unit → TurnState
  | .ok () => { s with phase := .listing }
  | .error e => (s.watchAudit e).caught turn

/-- `listTools` answered with those of the catalogue that this caller may see. -/
def listed (turn : Turn) (s : TurnState) : Except Thrown (JsString → Bool) → TurnState
  | .ok visible =>
    let allowedTools := turn.catalogue.definitions.filter fun d => visible d.name
    let effectiveTools := allowedTools.filter fun d =>
      d.name ∈ turn.request.tools.map ToolDefinition.name
    { s with phase := .running, effectiveTools }.emit
      (.turnStarted turn.request.agent (effectiveTools.map ToolDefinition.name))
  | .error e => (s.watchAudit e).caught turn

/-- The plugin's outcome, where it parses. -/
def concluded (turn : Turn) (s : TurnState) : Option RuntimeTurnOutcome → TurnState
  | none =>
    s.failTurn turn "invalid_runtime_outcome"
      "The runtime plugin returned an invalid terminal outcome."
  | some (.complete output) => (s.emit .turnCompleted).endTurn turn (.succeeded output)
  | some (.escalate _) =>
    if !escalationOffered s.effectiveTools then
      s.failTurn turn "tool_unavailable"
        "The runtime ended the turn by escalation, but this turn's catalogue does not offer the affordance."
    else { s with phase := .escalating }
  | some (.fail error) =>
    -- the plugin's own `true` stands only where running the turn again repeats nothing
    (s.emit (.turnFailed error.code .runtime)).endTurn turn
      (.failed (if error.retryable = some true ∧ !s.safeToRetry then
        { error with retryable := some false } else error))

/-- `run` came back. A plugin that swallowed an outage does not outlive it. -/
def returned (turn : Turn) (s : TurnState) : Except Thrown (Option RuntimeTurnOutcome) → TurnState
  | .error _ => s.caught turn
  | .ok candidate =>
    if s.auditOutage.isSome then s.caught turn
    else s.concluded turn (candidate.bind runtimeTurnOutcomeSchema)

/-- `recordEscalation` answered. -/
def escalated (turn : Turn) (s : TurnState) : Except Thrown Escalation → TurnState
  | .ok escalation =>
    (s.emit (.turnEscalated escalation.reason escalation.reviewer)).endTurn turn
      (.escalated escalation)
  | .error e => (s.watchAudit e).caught turn

end TurnState

/-! ## Mediated calls -/

/-- `refusedToolResult` as the envelope builds it. -/
def envelopeRefusal (call : ToolCall) (now code message : JsString) : ToolResult :=
  refusedToolResult call .denied now code message

/-- Whether a settled call is known to have done nothing. -/
def isRefusedBeforeEffect (result : ToolResult) : Bool :=
  (toolResultSchema result).any fun parsed => parsed.status = .denied

namespace TurnState

/-- One call more in the ledger. -/
def addCall (s : TurnState) (call : MediatedCall) : TurnState :=
  { s with ledger := { s.ledger with calls := s.ledger.calls ++ [call] } }

/-- `tool.completed`, of a result. -/
def completed (result : ToolResult) (step : Option ℕ) : ExecutionEventData :=
  .toolCompleted result.callId result.status result.tool step result.errorCode

/-- `#recordRefusedCall`: the kernel is asked once, and whatever comes of it is swallowed. -/
def recordRefusedCall (turn : Turn) (s : TurnState) (result : ToolResult) (cause : Option JsString) :
    TurnState :=
  match result.errorCode with
  | none => s
  | some reasonCode =>
    { s with
      refusals := s.refusals ++
        [{ context := contextAt turn.executionContext result.completedAt
           callId := result.callId
           tool := result.tool
           reasonCode
           cause }] }

/-- A call the envelope stops: completed, and then recorded. -/
def refuseCall (turn : Turn) (s : TurnState) (call : ToolCall) (step : Option ℕ)
    (now code message : JsString) (cause : Option JsString := none) : TurnState :=
  let result := envelopeRefusal call now code message
  ((s.emit (completed result step)).recordRefusedCall turn result cause).addCall
    { call
      step
      context := contextAt turn.executionContext now
      -- not read of a call that never reaches the kernel
      repeatable := true
      trace := []
      stage := .refused result
      answer := none }

/-- Hand the call to the kernel. -/
def admitCall (turn : Turn) (s : TurnState) (call : ToolCall) (step : Option ℕ) (now : JsString) :
    TurnState :=
  let repeatable := call.tool ∈ (s.effectiveTools.filter isSafeToRepeat).map ToolDefinition.name
  let context := contextAt turn.executionContext now
  let s := s.addCall
    { call
      step
      context
      repeatable
      trace := []
      stage := .withKernel (invokeTool turn.executor.kernel context call)
      answer := none }
  { s with ledger :=
    { s.ledger with writesWithKernel := s.ledger.writesWithKernel + if repeatable then 0 else 1 } }

/-- A declared step counts once. -/
def countStep (s : TurnState) : Option ℕ → TurnState
  | none => s
  | some step => { s with ledger := { s.ledger with steps := s.ledger.steps.insert step } }

/-- A call counts when it is asked for. -/
def countCall (s : TurnState) : TurnState :=
  { s with ledger := { s.ledger with toolCallCount := s.ledger.toolCallCount + 1 } }

/-- The checks on a parsed call, in order. -/
def requestTool (turn : Turn) (s : TurnState) (call : ToolCall) (step : Option ℕ)
    (now : JsString) : TurnState :=
  let s := s.emit (.toolRequested call.id call.tool step)
  if s.deadlines.draining then
    s.refuseCall turn call step now "turn_draining"
      "The turn is ending and takes no new tool calls."
  else if step.any fun step => !stepIsWithinBudget step s.ledger.steps turn.maxSteps then
    s.refuseCall turn call step now "step_limit_exceeded"
      "The runtime reached its maximum number of steps."
  else
    -- a step counts from its first call on, whatever becomes of the call
    let s := s.countStep step
    if turn.maxToolCalls ≤ s.ledger.toolCallCount then
      s.refuseCall turn call step now "tool_call_limit_exceeded"
        "The runtime reached its maximum number of tool calls."
    else
      let s := s.countCall
      if call.tool ∉ s.effectiveTools.map ToolDefinition.name then
        s.refuseCall turn call step now "tool_unavailable"
          "The tool is not available in this permission-filtered turn." (some "not_offered")
      else s.admitCall turn call step now

/-- `host.invokeTool` up to its first await. A call the host does not take is a throw into the
plugin and leaves nothing. -/
def mediateTool (turn : Turn) (s : TurnState) (candidate : ToolCall) (declared : Option ℤ)
    (now : JsString) : TurnState :=
  if !s.hostActive then s
  else
    match toolCallSchema candidate, parseRuntimeStep declared with
    | some call, some step => s.requestTool turn call step now
    | _, _ => s

/-- What a kernel operation is answered where the turn settles it: the signal it was given is the
turn's, and while the turn is open its lease holds the catalogue. -/
def answerOf (turn : Turn) (s : TurnState) (surroundings : (o : KernelOp) → o.Answer) :
    (o : KernelOp) → o.Answer
  | .signalAborted => s.deadlines.aborted.isSome
  | .leasedRegistry key =>
    if s.phase = .closed then surroundings (.leasedRegistry key)
    else
      match surroundings (.leasedRegistry key) with
      | some (.error e) => some (.error e)
      | _ => some (.ok turn.catalogue)
  | o => surroundings o

/-- The call at this place has moved. -/
def setCall (s : TurnState) (i : ℕ) (call : MediatedCall) : TurnState :=
  { s with ledger := { s.ledger with calls := s.ledger.calls.set i call } }

/-- The reason a kernel operation rejected with, as the envelope sees it. -/
def thrownOf (s : TurnState) : KernelError → Thrown
  | .aborted => s.deadlines.aborted.getD .other
  | .auditUnavailable effect => .auditUnavailable effect

/-- The kernel operation of a call is answered once, by the turn or its surroundings. -/
def kernelAnswers (turn : Turn) (s : TurnState) (i : ℕ) (c : MediatedCall)
    (surroundings : (o : KernelOp) → o.Answer) : Option TurnState :=
  match c.stage with
  | .withKernel (.ask o next) =>
    let x := s.answerOf turn surroundings o
    some (s.setCall i { c with trace := c.trace ++ [⟨o, x⟩], stage := .withKernel (next x) })
  | _ => none

/-- The kernel's promise settles, under `watchAudit`. The error is the outage itself when it is the
one that was noted; a sibling rejecting with the abort's own reason comes to the same, since by then
draining again does nothing. -/
def kernelSettles (s : TurnState) (i : ℕ) (c : MediatedCall) : Option TurnState :=
  match c.stage with
  | .withKernel (.done result) => some (s.setCall i { c with stage := .watched (.ok result) false })
  | .withKernel (.throw e) =>
    let thrown := s.thrownOf e
    let isOutage := thrown ≠ .other ∧ s.auditOutage.isNone
    some ((s.watchAudit thrown).setCall i { c with stage := .watched (.error thrown) isOutage })
  | _ => none

/-- A call is no longer with the kernel. -/
def settleWrite (s : TurnState) (c : MediatedCall) (harmless : Bool) : TurnState :=
  { s with ledger :=
    { s.ledger with
      writesWithKernel := s.ledger.writesWithKernel - if c.repeatable then 0 else 1
      effectPossible := s.ledger.effectPossible || (!c.repeatable && !harmless) } }

/-- The envelope's account of a settled call. -/
def accountFor (s : TurnState) (i : ℕ) (c : MediatedCall) : Option TurnState :=
  match c.stage with
  | .watched (.ok result) _ =>
    some ((s.settleWrite c (isRefusedBeforeEffect result)).setCall i
      { c with stage := .accounted (.ok result) })
  | .watched (.error thrown) isOutage =>
    -- once the turn is aborted a sibling rejects with this same error, which proves nothing
    let refusedForOutage := thrown = .auditUnavailable .none ∧ s.deadlines.aborted.isNone
    let s := s.settleWrite c refusedForOutage
    let s := if isOutage then { s with deadlines := s.deadlines.drain thrown } else s
    some (s.setCall i { c with stage := .accounted (.error thrown) })
  | _ => none

/-- The race was won: the result is checked, completed and handed over. -/
def deliver (s : TurnState) (i : ℕ) (c : MediatedCall) : Option TurnState :=
  match c.stage, c.answer with
  | .accounted (.ok candidate), none =>
    match toolResultSchema candidate with
    | none => some (s.setCall i { c with answer := some (.error .other) })
    | some result =>
      -- the turn has ended meanwhile, and its plugin is told nothing more
      if !s.hostActive then some (s.setCall i { c with answer := some (.error .other) })
      else some ((s.emit (completed result c.step)).setCall i { c with answer := some (.ok result) })
  | .accounted (.error thrown), none =>
    some (s.setCall i { c with answer := some (.error thrown) })
  | .refused result, none => some (s.setCall i { c with answer := some (.ok result) })
  | _, _ => none

/-- The race was lost to the abort. -/
def abandon (s : TurnState) (i : ℕ) (c : MediatedCall) : Option TurnState :=
  match c.stage, c.answer, s.deadlines.aborted with
  -- a refusal is answered without a race
  | .refused _, _, _ => none
  | _, none, some reason => some (s.setCall i { c with answer := some (.error reason) })
  | _, _, _ => none

end TurnState

/-! ## The machine -/

/-- What becomes of one mediated call. -/
inductive CallEvent where
  | kernelAnswers (surroundings : (o : KernelOp) → o.Answer)
  | kernelSettles
  | accounts
  | delivers
  | abandons

/-- What can happen next in a turn. -/
inductive TurnLabel where
  | hostAborts (reason : Thrown)
  | deadline
  | drainDeadline
  | graceExpires
  | start (parent : Option Thrown)
  | opened (answer : Except (Option Thrown) Unit)
  | admitted (answer : Except Thrown (Option JsString))
  | reached (answer : Except Thrown Unit)
  | listed (answer : Except Thrown (JsString → Bool))
  | returned (answer : Except Thrown (Option RuntimeTurnOutcome))
  | escalated (answer : Except Thrown Escalation)
  /-- The turn body's await loses its race to the abort. -/
  | abandoned
  /-- The calls waited for are back, or the signal has fired. -/
  | drained
  | emit (type : JsString) (data : Json)
  | invoke (call : ToolCall) (step : Option ℤ) (now : JsString)
  | call (i : ℕ) (event : CallEvent)

/-- A signal or a timer, while the turn has any. -/
def TurnState.signalled (s : TurnState) (deadlines : TurnDeadlines) : Option TurnState :=
  if s.phase = .fresh ∨ s.phase = .closed then none else some { s with deadlines }

/-- `host.emit`. -/
def TurnState.runtimeEvent (s : TurnState) (type : JsString) (data : Json) : TurnState :=
  if !s.hostActive then s
  else
    match identifierSchema type, jsonSchema data with
    | some type, some data => s.emit (.runtimeEvent type data)
    | _, _ => s

/-- Whether the plugin has its host. -/
def TurnState.pluginStarted (s : TurnState) : Bool :=
  match s.phase with
  | .fresh | .opening | .admitting | .reaching | .listing => false
  -- a plugin may outlive its turn
  | .running | .escalating | .draining _ | .closed => true

/-- One event of one call. -/
def callStep (turn : Turn) (s : TurnState) (i : ℕ) (c : MediatedCall) :
    CallEvent → Option TurnState
  | .kernelAnswers surroundings => s.kernelAnswers turn i c surroundings
  | .kernelSettles => s.kernelSettles i c
  | .accounts => s.accountFor i c
  | .delivers => s.deliver i c
  | .abandons => s.abandon i c

/-- One event of a turn, where it can happen. -/
def executorStep (turn : Turn) (s : TurnState) : TurnLabel → Option TurnState
  | .hostAborts reason => s.signalled (s.deadlines.abort reason)
  | .deadline => s.signalled (s.deadlines.abort .other)
  | .drainDeadline =>
    if s.deadlines.graceMs = 0 then none else s.signalled s.deadlines.startDraining
  | .graceExpires =>
    s.deadlines.stopAfterGrace.bind fun reason => s.signalled (s.deadlines.abort reason)
  | .start parent => if s.phase = .fresh then some (s.start turn parent) else none
  | .opened answer => if s.phase = .opening then some (s.opened turn answer) else none
  | .admitted answer => if s.phase = .admitting then some (s.admitted turn answer) else none
  | .reached answer => if s.phase = .reaching then some (s.reached turn answer) else none
  | .listed answer => if s.phase = .listing then some (s.listed turn answer) else none
  | .returned answer => if s.phase = .running then some (s.returned turn answer) else none
  | .escalated answer => if s.phase = .escalating then some (s.escalated turn answer) else none
  | .abandoned =>
    match s.phase with
    | .fresh | .closed | .draining _ => none
    | _ => if s.deadlines.aborted.isSome then some (s.caught turn) else none
  | .drained =>
    match s.phase with
    | .draining waitedFor =>
      if s.deadlines.aborted.isSome ∨ ∀ i ∈ waitedFor, i ∉ s.inFlight then some (s.endCaught turn)
      else none
    | _ => none
  | .emit type data => if s.pluginStarted then some (s.runtimeEvent type data) else none
  | .invoke call step now =>
    if s.pluginStarted then some (s.mediateTool turn call step now) else none
  | .call i event => s.ledger.calls[i]?.bind fun c => callStep turn s i c event

end SharedOS.Runtime
