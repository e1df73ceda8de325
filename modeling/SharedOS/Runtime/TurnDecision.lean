/-
SharedOS.Runtime.TurnDecision — what a driver decides, and which decisions the standard loop takes.

A driver's decision is checked before anything acts on it. What passes is typed, and what does not is
no decision at all. An error a driver ends its turn with is checked by the contract of errors.
-/
import SharedOS.Contracts.Execution

namespace SharedOS.Runtime

open SharedOS.Foundation SharedOS.Contracts

/-- The `message` of an error, which may be no string. -/
inductive ErrorMessage where
  | text (s : JsString)
  | other
  deriving DecidableEq

/-- An error as a driver hands it over. -/
structure ErrorCandidate where
  code : JsString
  message : ErrorMessage
  retryable : Option Bool := none
  details : Option Json := none

/-- `ProtocolErrorSchema` on what a driver hands over. -/
def errorCandidateSchema (e : ErrorCandidate) : Option ProtocolError :=
  match e.message with
  | .other => none
  | .text message =>
    protocolErrorSchema { code := e.code, message, retryable := e.retryable, details := e.details }

/-- A decision as a driver hands it over. One of another shape, or with keys of its own, is
`malformed`. -/
inductive AgentTurnCandidate where
  | toolCall (call : ToolCall) (step : Option JsNumber)
  | complete (output : Json) (metadata : Option Json)
  | fail (error : ErrorCandidate) (metadata : Option Json)
  | escalate (reason : JsString) (metadata : Option Json)
  | malformed

/-- A decision that was accepted. -/
inductive AgentTurnDecision where
  | toolCall (call : ToolCall) (step : Option ℕ)
  | complete (output : Json) (metadata : Option Json)
  | fail (error : ProtocolError) (metadata : Option Json)
  | escalate (reason : JsString) (metadata : Option Json)

/-- `Number.isInteger(step) && step >= 0`. -/
def declaredStep : JsNumber → Option ℕ
  | .finite q => if q.den = 1 ∧ 0 ≤ q.num then some q.num.toNat else none
  | .negZero => some 0
  | _ => none

/-- `escalationReason`. -/
def escalationReason : JsString → Option JsString := trimmedString 512

/-- `parseAgentTurnDecision`. -/
def parseAgentTurnDecision [HostPlatform] : AgentTurnCandidate → Option AgentTurnDecision
  | .toolCall call step => do
    let call ← toolCallSchema call
    match step with
    | none => some (.toolCall call none)
    | some declared => (declaredStep declared).map fun step => .toolCall call (some step)
  | .fail error metadata => do
    let error ← errorCandidateSchema error
    let metadata ← optionalSchema jsonObjectSchema metadata
    some (.fail error metadata)
  | .escalate reason metadata => do
    let reason ← escalationReason reason
    let metadata ← optionalSchema jsonObjectSchema metadata
    some (.escalate reason metadata)
  | .complete output metadata => do
    let output ← jsonSchema output
    let metadata ← optionalSchema jsonObjectSchema metadata
    some (.complete output metadata)
  | .malformed => none

/-- A failure stands as it was handed over, where its error passes. -/
theorem parseAgentTurnDecision_fail [HostPlatform] {error : ErrorCandidate}
    {parsed : ProtocolError} (h : errorCandidateSchema error = some parsed) :
    parseAgentTurnDecision (.fail error none) = some (.fail parsed none) := by
  simp only [parseAgentTurnDecision, h]
  rfl

end SharedOS.Runtime
