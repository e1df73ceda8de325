/-
SharedOS.Adapters.ModelDriver — a model API in the seat of the standard loop.

One turn of the model session as a machine. The loop asks for a decision, the client answers with a
reply or throws, and the session goes on by itself as far as its next decision or its next call of the
client. The calls of a reply are queued and handed to the loop one at a time. A call whose arguments
are not an object is answered on the spot, and a turn takes only so many of those.
-/
import SharedOS.Adapters.Harness
import SharedOS.Foundation.Run
import SharedOS.Runtime.Executor
import SharedOS.Runtime.StandardLoop

namespace SharedOS.Adapters

open SharedOS.Foundation SharedOS.Contracts SharedOS.Mcp SharedOS.Runtime

/-! ## What a client speaks -/

/-- One call a model asked for, as it came off the wire. -/
structure ModelToolCall where
  id : JsString
  name : JsString
  arguments : JsString

/-- A tool, as a model is told of it. -/
structure ModelTool where
  name : JsString
  description : JsString
  parameters : Json

/-- A message of the transcript. -/
inductive ModelMessage where
  | system (content : JsString)
  | user (content : JsString)
  | assistant (content : JsString) (toolCalls : List ModelToolCall)
  | tool (toolCallId content : JsString)

/-- What a reply cost. -/
structure ModelUsage where
  inputTokens : Option ℕ
  outputTokens : Option ℕ

/-- What a model replied. -/
structure ModelReply where
  text : JsString
  toolCalls : List ModelToolCall
  finishReason : Option JsString := none
  usage : Option ModelUsage := none
  model : Option JsString := none

/-! ## Names on the wire -/

/-- `name.replaceAll(".", "_")`. -/
def wireName (name : JsString) : JsString := name.map fun u => if u = 0x2E then 0x5F else u

/-- `WIRE_NAME_PATTERN`. -/
def isWireName (wire : JsString) : Bool :=
  !wire.isEmpty && wire.all fun u =>
    (0x61 ≤ u && u ≤ 0x7A) || (0x41 ≤ u && u ≤ 0x5A) || (0x30 ≤ u && u ≤ 0x39) || u = 0x5F || u = 0x2D

/-- The names of a catalogue under their wire names, no two of them under one. -/
structure ToolNameCodec where
  names : List (JsString × JsString)

namespace ToolNameCodec

/-- One more name, unless no wire name matches it or another name has it. -/
def add (codec : ToolNameCodec) (name : JsString) : Option ToolNameCodec :=
  let wire := wireName name
  if !isWireName wire then none
  else
    match codec.names.lookup wire with
    | some clash => if clash = name then some codec else none
    | none => some { names := (wire, name) :: codec.names }

/-- The constructor, which throws on a catalogue that cannot be offered. -/
def create (tools : List JsString) : Option ToolNameCodec := tools.foldlM add { names := [] }

/-- The canonical name of a wire name. One that is not in the table has its underscores read as
dots. -/
def fromWire (codec : ToolNameCodec) (name : JsString) : JsString :=
  (codec.names.lookup name).getD (name.map fun u => if u = 0x5F then 0x2E else u)

end ToolNameCodec

/-! ## Reading a call -/

/-- `boundedReason`: cut at the bound, and not within a pair. -/
def boundedReason (value : JsString) : Option JsString :=
  let trimmed := trim value
  if trimmed = [] then none
  else if trimmed.length ≤ 512 then some trimmed
  else
    let cut := trimmed.take 512
    some (if cut.getLast?.any fun last => 0xD800 ≤ last && last ≤ 0xDBFF then cut.dropLast else cut)

/-- `escalationRequest`. -/
def escalationRequest (tool : JsString) (arguments : Option Json) : Option JsString :=
  if tool ≠ escalationToolName then none
  else
    let reason := (arguments.bind jsonObjectSchema).bind fun object =>
      ((field "reason" object).bind stringSchema).bind boundedReason
    some (reason.getD "the turn asked for a human decision without saying what needs deciding")

/-- `askedToEscalate`. -/
def askedToEscalate (offered : Bool) (tool : JsString) (arguments : Option Json) : Option JsString :=
  if offered then escalationRequest tool arguments else none

/-- What the driver reads of a model client. -/
structure ModelClient where
  model : JsString
  provider : JsString
  settings : Option Json

/-- The two texts a seat is handed. -/
structure SeatText where
  instructions : Option JsString
  prompt : JsString

/-- What a turn's session is opened with. -/
structure ModelSeat where
  /-- `JSON.parse` -/
  parse : JsString → Option Json
  client : ModelClient
  codec : ToolNameCodec
  tools : List ModelTool
  /-- Whether the turn's catalogue offers the escalate affordance. -/
  offered : Bool
  traceId : JsString
  now : JsString
  text : SeatText
  /-- `DeclareStep`, which may throw. -/
  declareStep : Option (ℕ → Except Unit (Option JsNumber))
  maxMalformedCalls : ℕ

/-- Where one call goes once it has been read. -/
inductive ModelToolCallReading where
  | escalate (reason : JsString)
  | toolCall (call : ToolCall)
  | malformed (refusal : ToolResult)

/-- A call, as the seat makes it. -/
def seatToolCall (seat : ModelSeat) (id tool : JsString) (arguments : Json) : ToolCall where
  id := id
  tool := tool
  arguments := arguments
  traceId := seat.traceId
  requestedAt := seat.now

/-- What a call of the model comes to: a call of a tool, an escalation, or a refusal. -/
def readModelToolCall (seat : ModelSeat) (call : ModelToolCall) : ModelToolCallReading :=
  let tool := seat.codec.fromWire call.name
  let parsed := parseToolArguments seat.parse call.arguments
  match askedToEscalate seat.offered tool parsed with
  | some reason => .escalate reason
  | none =>
    match parsed with
    | none =>
      .malformed
        { callId := call.id
          tool
          completedAt := seat.now
          outcome := .failed
            { code := "invalid_tool_arguments"
              message := "The tool arguments were not a JSON object, so the call was not made."
              retryable := none
              details := none }
          metadata := none }
    | some arguments => .toolCall (seatToolCall seat call.id tool arguments)

/-- `toolResultBody`. -/
def toolResultBody (result : ToolResult) : Json :=
  let refused (status : JsString) (error : ProtocolError) : Json :=
    .obj [("status", .str status),
      ("error", .obj [("code", .str error.code), ("message", .str error.message)])]
  match result.outcome with
  | .succeeded output => .obj [("status", .str "succeeded"), ("output", output)]
  | .denied error => refused "denied" error
  | .failed error => refused "failed" error

/-- The message that answers a call. -/
def modelToolResultMessage [HostPlatform] (result : ToolResult) : ModelMessage :=
  .tool result.callId (Json.stringify HostPlatform.numberToString (toolResultBody result))

/-! ## The session -/

/-- What the session did, in order, and what it was told. -/
inductive SeatEvent where
  /-- `next` was called. -/
  | asked
  /-- `client.complete` was called with these. -/
  | handed (messages : List ModelMessage) (tools : List ModelTool)
  | replied (reply : ModelReply)
  /-- A call was answered on the spot. -/
  | refused (call : ModelToolCall)
  /-- A call was handed to the loop, at a step if one is declared. -/
  | released (call : ToolCall) (step : Option JsNumber)
  /-- The session ended: with a decision, or with a throw. -/
  | ended (decision : Option AgentTurnCandidate)

/-- What the session waits for. -/
inductive SeatPhase where
  | fresh
  /-- The loop has this call. -/
  | released (call : ToolCall)
  /-- The client has the conversation. -/
  | completing
  | over

/-- The session of one turn: its transcript, its queue of calls, and what it did. -/
structure ModelSession where
  messages : List ModelMessage
  pending : List ModelToolCall
  /-- Calls released to the loop this turn. -/
  released : ℕ
  servedModel : Option JsString
  finishReason : Option JsString
  inputTokens : Option ℕ
  outputTokens : Option ℕ
  malformed : ℕ
  phase : SeatPhase
  log : List SeatEvent

/-- The constructor: the environment before the task. -/
def ModelSession.create (seat : ModelSeat) : ModelSession where
  messages := (seat.text.instructions.map ModelMessage.system).toList ++ [.user seat.text.prompt]
  pending := []
  released := 0
  servedModel := none
  finishReason := none
  inputTokens := none
  outputTokens := none
  malformed := 0
  phase := .fresh
  log := []

/-- A count, as a number. -/
def countJson (n : ℕ) : Json := .num (.finite (mkRat n 1))

namespace ModelSession

/-- `#metadata`. -/
def metadata (seat : ModelSeat) (s : ModelSession) : Json :=
  .obj (([("model", .str (s.servedModel.getD seat.client.model)),
      ("modelProvider", .str seat.client.provider),
      ("requestedModel", .str seat.client.model)] : List (JsString × Json)) ++
    optionalEntry "modelSettings" seat.client.settings ++
    ([("malformedToolCalls", countJson s.malformed)] : List (JsString × Json)) ++
    optionalEntry "finishReason" (s.finishReason.map Json.str) ++
    optionalEntry "inputTokens" (s.inputTokens.map countJson) ++
    optionalEntry "outputTokens" (s.outputTokens.map countJson))

/-- One event more in the log. -/
def record (s : ModelSession) (event : SeatEvent) : ModelSession :=
  { s with log := s.log ++ [event] }

/-- One message more in the transcript. -/
def push (s : ModelSession) (message : ModelMessage) : ModelSession :=
  { s with messages := s.messages ++ [message] }

/-- The session ends here. -/
def finish (s : ModelSession) (decision : Option AgentTurnCandidate) : ModelSession :=
  { s.record (.ended decision) with phase := .over }

/-- `failed`. -/
def failWith (seat : ModelSeat) (s : ModelSession) (code message : JsString) : ModelSession :=
  s.finish (some (.fail { code, message := .text message } (some (s.metadata seat))))

/-- `SeatCalls.release`: the call is counted, and its step declared. -/
def releaseCall (seat : ModelSeat) (s : ModelSession) (call : ToolCall) : ModelSession :=
  let index := s.released
  let s := { s with released := index + 1 }
  match seat.declareStep.elim (.ok none) fun declare => declare index with
  | .error _ => s.finish none
  | .ok step => { s.record (.released call step) with phase := .released call }

/-- `#account`. -/
def account (s : ModelSession) (reply : ModelReply) : ModelSession :=
  let input := reply.usage.bind ModelUsage.inputTokens
  let output := reply.usage.bind ModelUsage.outputTokens
  { s with
    servedModel := reply.model.or s.servedModel
    finishReason := reply.finishReason.or s.finishReason
    inputTokens := input.elim s.inputTokens fun n => some (s.inputTokens.getD 0 + n)
    outputTokens := output.elim s.outputTokens fun n => some (s.outputTokens.getD 0 + n) }

variable [HostPlatform]

/-- `#release`, from the calls that are queued. Where none is left the client is called. -/
def releaseFrom (seat : ModelSeat) (s : ModelSession) : List ModelToolCall → ModelSession
  | [] => { s.record (.handed s.messages seat.tools) with pending := [], phase := .completing }
  | next :: rest =>
    match readModelToolCall seat next with
    | .escalate reason =>
      { s with pending := [] }.finish (some (.escalate reason (some (s.metadata seat))))
    | .toolCall call => { s with pending := rest }.releaseCall seat call
    | .malformed refusal =>
      let s := { s with malformed := s.malformed + 1 }
      if seat.maxMalformedCalls < s.malformed then
        { s with pending := [] }.failWith seat "model_malformed_call_limit_exceeded"
          "The model emitted too many calls whose arguments could not be read."
      else ((s.push (modelToolResultMessage refusal)).record (.refused next)).releaseFrom seat rest

/-- `#release`. -/
def release (seat : ModelSeat) (s : ModelSession) : ModelSession := s.releaseFrom seat s.pending

/-- `next`, up to its first await. The loop begins with a start, and answers each call with a result
that carries its id. -/
def next (seat : ModelSeat) (s : ModelSession) : AgentTurnInput → Option ModelSession
  | .start =>
    match s.phase with
    | .fresh => some ((s.record .asked).release seat)
    | _ => none
  | .toolResult result =>
    match s.phase with
    | .released call =>
      if result.callId = call.id then
        some (((s.record .asked).push (modelToolResultMessage result)).release seat)
      else none
    | _ => none

/-- The client has replied. -/
def replied (seat : ModelSeat) (s : ModelSession) (reply : ModelReply) : ModelSession :=
  let s := (s.record (.replied reply)).account reply
  if reply.finishReason = some "length" then
    -- nothing in a reply that was cut off is a decision the model made
    s.failWith seat "model_output_truncated"
      "The model's reply was cut off at the output token limit before it finished deciding."
  else
    let s := s.push (.assistant reply.text reply.toolCalls)
    if reply.toolCalls = [] then
      s.finish (some (.complete (textOutput reply.text) (some (s.metadata seat))))
    else { s with pending := s.pending ++ reply.toolCalls }.release seat

/-- The client has thrown. -/
def clientThrew (seat : ModelSeat) (s : ModelSession) (aborted : Bool) (description : JsString) :
    ModelSession :=
  if aborted then s.finish none
  else s.failWith seat "model_call_failed" (("The model call failed: " : JsString) ++ description)

end ModelSession

/-- What can happen next to a session. -/
inductive SeatLabel where
  | next (input : AgentTurnInput)
  | replies (reply : ModelReply)
  /-- `client.complete` threw this, with the turn's signal aborted or not. -/
  | clientThrows (aborted : Bool) (description : JsString)

/-- One step of a turn's conversation. -/
def seatStep [HostPlatform] (seat : ModelSeat) (s : ModelSession) : SeatLabel → Option ModelSession
  | .next input => s.next seat input
  | .replies reply =>
    match s.phase with
    | .completing => some (s.replied seat reply)
    | _ => none
  | .clientThrows aborted description =>
    match s.phase with
    | .completing => some (s.clientThrew seat aborted description)
    | _ => none

end SharedOS.Adapters
