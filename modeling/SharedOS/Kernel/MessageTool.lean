/-
SharedOS.Kernel.MessageTool — the handler of `messages.request`.

The requirement of a request is resolved on the envelope that will be sent, and that envelope waits
in the tool's map, under the call object, for the hook that sends it. Sending reads it back, hands
it on for delivery, and answers with the reply the router found.
-/
import SharedOS.Foundation.Interpreter
import SharedOS.Kernel.InvokeTool
import SharedOS.Kernel.ToolPorts

namespace SharedOS.Kernel

open SharedOS.Foundation SharedOS.Contracts SharedOS.Core

variable [HostPlatform]

/-- The envelope a request asks for, before its schema has read it. -/
def requestEnvelope (context : AccessContext) (id : JsString)
    (arguments : MessageRequestArguments) : FullMessageEnvelope where
  version := PROTOCOL_VERSION
  id := id
  sender := context.actor
  receiver := arguments.recipient
  purpose := context.purpose
  payload := arguments.payload
  traceId := context.traceId
  createdAt := context.now
  replyTo := none
  provenance := none

/-- `replyMatchesRequest`. -/
def replyMatchesRequest (reply request : FullMessageEnvelope) : Bool :=
  reply.replyTo = some request.id &&
    addressesEqual reply.sender request.receiver &&
    addressesEqual reply.receiver request.sender &&
    reply.purpose = request.purpose &&
    reply.traceId = request.traceId

omit [HostPlatform] in
/-- What the kernel does for a tool, it does as it would alone. -/
def liftKernel {α : Type} (p : KernelM α) : ToolM α :=
  p.interpret fun o => query (.kernel o)

namespace MessageRequestTool

omit [HostPlatform] in
/-- `parseArguments`. -/
def parseArguments (arguments : Json) : Settled (Option Json) :=
  match messageRequestArgumentsSchema arguments with
  | none => .rejected
  | some parsed => .fulfilled (some parsed.toJson)

/-- `resolveRequirement`. The envelope is kept only once the resolver has answered for it. -/
def resolveRequirement (tool object : ℕ) (context : AccessContext) (call : ToolCall) :
    ToolM (Settled (Option CapabilityRequirement)) :=
  match messageRequestArgumentsSchema call.arguments with
  | none => pure .rejected
  | some arguments => do
    match ← query (.createMessageId context call) with
    | .rejected => pure .rejected
    | .fulfilled id =>
      match messageEnvelopeSchema (requestEnvelope context id arguments) with
      | none => pure .rejected
      | some envelope => do
        match ← query (.resolveMessageCapability context envelope) with
        | .rejected => pure .rejected
        | .fulfilled requirement => do
          query (.preparedSet tool object { callId := call.id, envelope })
          pure (.fulfilled requirement)

omit [HostPlatform] in
/-- A refusal as the handler returns it. -/
def refuse (context : AccessContext) (call : ToolCall) (code message : JsString) :
    ToolM (PortAnswer ToolResult) :=
  pure (.returned (some (refusedToolResult call .failed context.now code message)))

/-- Answer with the reply the router resolves. -/
def answerReply (kernel : SharedOSKernel) (context : AccessContext) (call : ToolCall)
    (request : FullMessageEnvelope) (delivery : MessageDeliveryResult) :
    ToolM (PortAnswer ToolResult) := do
  if ← query (.kernel .signalAborted) then pure .threw
  else
    let resolved ← query (.resolveReply context request delivery)
    -- read after a reply and after a throw alike
    if ← query (.kernel .signalAborted) then pure .threw
    else
      match resolved with
      | .rejected =>
        liftKernel (reportProviderError kernel context "message_reply_resolution_failed"
          { kind := .message, operationId := some call.id, tool := some call.tool })
        refuse context call "message_reply_resolution_failed"
          "The message router could not resolve a reply"
      | .fulfilled candidate =>
        match (candidate.bind messageEnvelopeSchema).filter
            fun reply => replyMatchesRequest reply request with
        | none =>
          refuse context call "invalid_message_reply" "The message router returned an invalid reply"
        | some reply =>
          pure (.returned (some
            { callId := call.id
              tool := call.tool
              completedAt := context.now
              outcome := .succeeded reply.payload
              metadata := none }))

/-- `invoke`. -/
def invoke (kernel : SharedOSKernel) (tool object : ℕ) (context : AccessContext)
    (call : ToolCall) : ToolM (PortAnswer ToolResult) := do
  match ← query (.preparedGet tool object) with
  | none =>
    refuse context call "message_request_not_prepared"
      "The message request was not prepared for authorization"
  | some held =>
    if held.callId ≠ call.id then
      refuse context call "message_request_not_prepared"
        "The message request was not prepared for authorization"
    else
      match ← query (.deliverAuthorizedMessage context held.envelope call) with
      | .threw => pure .threw
      | .threwAuditUnavailable => pure .threwAuditUnavailable
      | .settled delivery =>
        if delivery.taken then answerReply kernel context call held.envelope delivery
        else
          refuse context call "message_request_not_accepted"
            "The message request was not accepted for delivery"

end MessageRequestTool

end SharedOS.Kernel
