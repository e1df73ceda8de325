/-
SharedOS.Contracts.Execution — one turn: what it is asked with, what it leaves, how it ends.

A turn is asked with an agent, a context, a message and the tools a host would have it see, under
budgets of steps and calls. A turn's events are numbered from zero by their own position. Of the
endings only three carry an error, and the error's `retryable` is what a host reads before it runs
the turn again.

The data here is what the executor handles itself. What crosses the wire of the same turn is wider
and is `Contracts.Http`'s.

A call that a plugin asked for is read by `toolCallSchema` before anything else is done with it, so
the identifier and the tool that a turn counts, records and answers under are the trimmed ones.
-/
import SharedOS.Contracts.Tool

namespace SharedOS.Contracts

open SharedOS.Foundation

/-! ## The request -/

/-- What the envelope reads of the message a turn answers. -/
structure MessageEnvelope where
  receiver : Address
  traceId : JsString
  purpose : JsString

/-- The budgets a turn is asked with, absent where it has none of its own. -/
structure ExecutionOptions where
  maxSteps : Option ℕ := none
  maxToolCalls : Option ℕ := none

/-- What the executor is asked to run. -/
structure ExecutionRequest where
  executionId : JsString
  agent : Address
  context : AccessContext
  message : MessageEnvelope
  tools : List ToolDefinition
  options : Option ExecutionOptions

/-- `ToolCallSchema`. -/
def toolCallSchema [HostPlatform] (call : ToolCall) : Option ToolCall := do
  let id ← identifierSchema call.id
  let tool ← identifierSchema call.tool
  let arguments ← jsonObjectSchema call.arguments
  let traceId ← identifierSchema call.traceId
  let requestedAt ← timestampSchema call.requestedAt
  some { id, tool, arguments, traceId, requestedAt }

/-! ## What a runtime plugin returns -/

/-- The only terminal outcomes a plugin may return for one turn. -/
inductive RuntimeTurnOutcome where
  | complete (output : Json)
  | fail (error : ProtocolError)
  | escalate (reason : JsString)

/-- `RuntimeTurnOutcomeSchema`. -/
def runtimeTurnOutcomeSchema : RuntimeTurnOutcome → Option RuntimeTurnOutcome
  | .complete output => (jsonSchema output).map .complete
  | .fail error => (protocolErrorSchema error).map .fail
  | .escalate reason => (trimmedString 512 reason).map .escalate

/-! ## What a turn leaves -/

/-- Who ended a turn that failed. -/
inductive FailureSource where
  | envelope
  | runtime
  deriving DecidableEq

/-- The kinds of event, each with its data. -/
inductive ExecutionEventData where
  | turnDenied (code : JsString)
  | turnStarted (agent : Address) (visibleTools : List JsString)
  | toolRequested (callId tool : JsString) (step : Option ℕ)
  | toolCompleted (callId : JsString) (status : ToolStatus) (tool : JsString) (step : Option ℕ)
      (code : Option JsString)
  | runtimeEvent (type : JsString) (data : Json)
  | turnCompleted
  | turnEscalated (reason : JsString) (reviewer : Address)
  | turnFailed (code : JsString) (source : FailureSource)
  | turnCancelled

/-- An event, at its place in the turn's log. -/
structure ExecutionEvent where
  sequence : ℕ
  data : ExecutionEventData

/-- A stopped turn awaiting a human decision. -/
structure Escalation where
  reason : JsString
  reviewer : Address
  requestedAt : JsString

/-- How a turn ended. -/
inductive TurnEnding where
  | succeeded (output : Json)
  | denied (error : ProtocolError)
  | failed (error : ProtocolError)
  | cancelled (error : ProtocolError)
  | escalated (escalation : Escalation)

/-- What a turn leaves its caller. -/
structure ExecutionResult where
  executionId : JsString
  traceId : JsString
  ending : TurnEnding
  events : List ExecutionEvent

/-- The error an ending carries. Two endings have none. -/
def TurnEnding.error : TurnEnding → Option ProtocolError
  | .denied error | .failed error | .cancelled error => some error
  | .succeeded _ | .escalated _ => none

/-- `error.retryable = true`: a host may run the turn again. -/
def TurnEnding.retryable (ending : TurnEnding) : Bool :=
  ending.error.any fun error => error.retryable = some true

end SharedOS.Contracts
