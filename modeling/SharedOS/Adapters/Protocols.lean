/-
SharedOS.Adapters.Protocols — four vendors' frames, read in the vocabulary of each.

Every codec tries its schemas in turn, and a frame that is none of them means nothing. What varies is
where a call is carried: in a block of an assistant message, or in a frame of its own.
-/
import SharedOS.Adapters.Harness

namespace SharedOS.Adapters

open SharedOS.Foundation SharedOS.Contracts SharedOS.Mcp SharedOS.Runtime

/-- What a codec reports when the arguments of a call are not a JSON object. -/
def argumentsUnparseable (message : JsString) : HarnessStep :=
  .failed { code := "harness_arguments_unparseable", message := .text message }

/-- An ending the harness reports as a failure. -/
def reportedFailure (code message : JsString) : HarnessStep :=
  .failed { code, message := .text message, retryable := some true }

/-! ## Claude Code -/

namespace ClaudeCode

/-- `ToolUseBlockSchema`. -/
def toolUseBlockSchema : Json → Option CallBlock := callBlockSchema "tool_use" "input"

/-- `AssistantSchema`: the content of an assistant's frame. -/
def assistantSchema (frame : Json) : Option (List Json) :=
  if hasText "type" "assistant" frame then do
    let message ← field "message" frame
    let content ← field "content" message
    contentSchema (fun block => (toolUseBlockSchema block).map (CallBlock.toJson "tool_use" "input"))
      content
  else none

/-- A result frame. -/
structure Result where
  subtype : Option JsString
  isError : Option Bool
  result : Option JsString

/-- `ResultSchema`. -/
def resultSchema (frame : Json) : Option Result :=
  if hasText "type" "result" frame then do
    let subtype ← optionalField stringSchema "subtype" frame
    let isError ← optionalField booleanSchema "is_error" frame
    let result ← optionalField stringSchema "result" frame
    some { subtype, isError, result }
  else none

/-- A call block as a step. One the schema does not take yields none. -/
def toolUseStep (block : Json) : Option HarnessStep :=
  (toolUseBlockSchema block).map fun toolUse =>
    .toolCall toolUse.id toolUse.name (toolUse.arguments.getD (.obj []))

/-- How a result frame ends the turn. -/
def resultSteps (result : Result) : List HarnessStep :=
  if result.isError = some true ∨ result.subtype = some "error" then
    [reportedFailure (result.subtype.getD "harness_failed")
      (result.result.getD "The Claude Code harness reported a failure.")]
  else [.complete (result.result.map textOutput)]

/-- `claudeCodeProtocol.interpret`. -/
def interpret (frame : Json) : List HarnessStep :=
  match assistantSchema frame with
  | some content => contentBlockSteps content (some toolUseStep)
  | none =>
    match resultSchema frame with
    | some result => resultSteps result
    | none => []

end ClaudeCode

/-! ## Pi -/

namespace Pi

/-- `ToolCallBlockSchema`. -/
def toolCallBlockSchema : Json → Option CallBlock := callBlockSchema "toolCall" "arguments"

/-- The content of an assistant's message. -/
def assistantMessageSchema (message : Json) : Option (List Json) :=
  if hasText "role" "assistant" message then do
    let content ← (field "content" message).bind (contentSchema fun block =>
      (toolCallBlockSchema block).map (CallBlock.toJson "toolCall" "arguments"))
    let _ ← optionalField stringSchema "stopReason" message
    some content
  else none

/-- `MessageEndSchema`: the content of the message that ended. -/
def messageEndSchema (frame : Json) : Option (List Json) :=
  if hasText "type" "message_end" frame then (field "message" frame).bind assistantMessageSchema
  else none

/-- `AgentEndSchema`, of which `willRetry` is read. -/
def agentEndSchema (frame : Json) : Option (Option Bool) :=
  if hasText "type" "agent_end" frame then optionalField booleanSchema "willRetry" frame else none

/-- The answer to a command. -/
structure Response where
  command : Option JsString
  success : Bool
  error : Option JsString

/-- `ResponseSchema`. -/
def responseSchema (frame : Json) : Option Response :=
  if hasText "type" "response" frame then do
    let command ← optionalField stringSchema "command" frame
    let success ← (field "success" frame).bind booleanSchema
    let error ← optionalField stringSchema "error" frame
    some { command, success, error }
  else none

/-- `ErrorSchema`, of which the message is read. -/
def errorSchema (frame : Json) : Option (Option JsString) :=
  if hasText "type" "error" frame then optionalField stringSchema "message" frame else none

/-- A call block as a step. One the schema does not take yields none. -/
def toolCallStep (block : Json) : Option HarnessStep :=
  (toolCallBlockSchema block).map fun toolCall =>
    .toolCall toolCall.id toolCall.name (toolCall.arguments.getD (.obj []))

/-- What is said of a command that was rejected. -/
def rejectedMessage (response : Response) : JsString :=
  response.error.getD
    (("Pi rejected the " : JsString) ++ response.command.getD "requested" ++ (" command." : JsString))

/-- What ends a turn, and what does not. -/
def endingSteps (frame : Json) : List HarnessStep :=
  match errorSchema frame with
  | some message =>
    [reportedFailure "harness_failed" (message.getD "The Pi harness reported a failure.")]
  | none =>
    match agentEndSchema frame with
    | some willRetry => if willRetry = some true then [] else [.complete none]
    | none => []

/-- `piProtocol.interpret`. -/
def interpret (frame : Json) : List HarnessStep :=
  match messageEndSchema frame with
  | some content => contentBlockSteps content (some toolCallStep)
  | none =>
    match responseSchema frame with
    | some response =>
      if response.success then endingSteps frame
      else [reportedFailure "harness_command_rejected" (rejectedMessage response)]
    | none => endingSteps frame

end Pi

/-! ## Codex -/

namespace Codex

/-- A function call, with its arguments as text. -/
structure FunctionCall where
  callId : JsString
  name : JsString
  arguments : JsString

/-- `FunctionCallSchema`. -/
def functionCallSchema (frame : Json) : Option FunctionCall :=
  if hasText "type" "function_call" frame then do
    let callId ← (field "call_id" frame).bind nonEmptyString
    let name ← (field "name" frame).bind nonEmptyString
    let arguments ← (field "arguments" frame).bind stringSchema
    some { callId, name, arguments }
  else none

/-- What an error may say. -/
structure ErrorFields where
  code : Option JsString
  message : Option JsString

/-- `{ code?, message? }`. -/
def errorFieldsSchema : Json → Option ErrorFields :=
  objectOf fun error => do
    let code ← optionalField stringSchema "code" error
    let message ← optionalField stringSchema "message" error
    some { code, message }

/-- An error frame, or a failed turn. -/
structure Failure where
  message : Option JsString
  error : Option ErrorFields

/-- `ErrorSchema`. -/
def failureSchema (frame : Json) : Option Failure :=
  if hasText "type" "error" frame ∨ hasText "type" "response.failed" frame then do
    let message ← optionalField stringSchema "message" frame
    let error ← optionalField errorFieldsSchema "error" frame
    some { message, error }
  else none

/-- `CompletedSchema`, of which the text is read. -/
def completedSchema (frame : Json) : Option (Option JsString) :=
  if hasText "type" "response.completed" frame then do
    let response ← optionalField (objectOf (optionalField stringSchema "output_text")) "response"
      frame
    some (response.bind id)
  else none

/-- `MessageSchema`: a typed block is kept, whatever it is. -/
def messageSchema (frame : Json) : Option (List Json) :=
  if hasText "type" "message" frame then
    match field "content" frame with
    | some (.arr blocks) => blocks.mapM unknownBlockSchema
    | _ => none
  else none

/-- `AgentMessageItemSchema`, of which the prose is read. -/
def agentMessageItemSchema (frame : Json) : Option JsString :=
  if hasText "type" "item.completed" frame then
    (field "item" frame).bind fun item =>
      if hasText "type" "agent_message" item then (field "text" item).bind stringSchema else none
  else none

/-- `TurnFailedSchema`, of which the reason is read. -/
def turnFailedSchema (frame : Json) : Option (Option JsString) :=
  if hasText "type" "turn.failed" frame then do
    let error ← optionalField (objectOf (optionalField stringSchema "message")) "error" frame
    some (error.bind id)
  else none

/-- How an error frame ends the turn. -/
def failureSteps (failure : Failure) : List HarnessStep :=
  [reportedFailure ((failure.error.bind ErrorFields.code).getD "harness_failed")
    (((failure.error.bind ErrorFields.message).or failure.message).getD
      "The Codex harness reported a failure.")]

/-- What is said of a failed turn. -/
def failedTurnMessage (reason : Option JsString) : JsString :=
  match reason with
  | none => "The Codex CLI reported a failed turn."
  | some text => if trim text = [] then "The Codex CLI reported a failed turn." else text

/-- The events of `codex exec --json`. -/
def cliSteps (frame : Json) : List HarnessStep :=
  match agentMessageItemSchema frame with
  | some text => if trim text = [] then [] else [.message text]
  | none =>
    if hasText "type" "turn.completed" frame then [.complete none]
    else
      match turnFailedSchema frame with
      | some reason => [reportedFailure "harness_failed" (failedTurnMessage reason)]
      | none => []

/-- Everything but a call. -/
def otherSteps (frame : Json) : List HarnessStep :=
  match failureSchema frame with
  | some failure => failureSteps failure
  | none =>
    match completedSchema frame with
    | some text => [.complete (text.map textOutput)]
    | none =>
      match messageSchema frame with
      | some content => content.filterMap fun block => (blockText "output_text" block).map .message
      | none => cliSteps frame

/-- `codexProtocol.interpret`. -/
def interpret (parse : JsString → Option Json) (frame : Json) : List HarnessStep :=
  match functionCallSchema frame with
  | some call =>
    match parseToolArguments parse call.arguments with
    | none => [argumentsUnparseable "Codex sent tool arguments that are not a JSON object."]
    | some parsed => [.toolCall call.callId call.name parsed]
  | none => otherSteps frame

end Codex

/-! ## DeepSeek -/

namespace DeepSeek

/-- An event of a session, before its type is read. -/
structure SessionEvent where
  type : JsString
  data : Json

/-- The envelope of an event. -/
def eventEnvelopeSchema (value : Json) : Option SessionEvent := do
  let type ← (field "type" value).bind nonEmptyString
  let data ← (field "data" value).bind recordSchema
  some { type, data }

/-- `session.event`, the one notification that is read. -/
def notificationSchema (frame : Json) : Option SessionEvent :=
  if hasText "method" "session.event" frame then do
    let params ← field "params" frame
    let event ← field "event" params
    eventEnvelopeSchema event
  else none

/-- `readEvent`: the session-log event a frame carries, wrapped or bare. -/
def readEvent (frame : Json) : Option SessionEvent :=
  (notificationSchema frame).or (eventEnvelopeSchema frame)

/-- A `tool/call`, with its arguments as text. -/
structure ToolCallEvent where
  callId : JsString
  name : JsString
  arguments : JsString

/-- The data of a `tool/call`. -/
def toolCallEventSchema (data : Json) : Option ToolCallEvent := do
  let callId ← (field "callId" data).bind nonEmptyString
  let name ← (field "name" data).bind nonEmptyString
  let arguments ← (field "arguments" data).bind stringSchema
  some { callId, name, arguments }

/-- `ToolCallBlockSchema`, as the union leaves it. -/
def toolCallBlockSchema (block : Json) : Option Json :=
  if hasText "type" "tool-call" block then do
    let id ← (field "id" block).bind nonEmptyString
    let name ← (field "name" block).bind nonEmptyString
    let arguments ← (field "arguments" block).bind stringSchema
    some (.obj [("type", .str "tool-call"), ("id", .str id), ("name", .str name),
      ("arguments", .str arguments)])
  else none

/-- The data of an assistant's message: its content. -/
def assistantMessageEventSchema (data : Json) : Option (List Json) := do
  let message ← field "message" data
  let content ← field "content" message
  contentSchema toolCallBlockSchema content

/-- How a session says that its turn ended. -/
structure TurnEnd where
  kind : JsString
  error : Option Codex.ErrorFields

/-- The data of a `turn/end`. -/
def turnEndEventSchema (data : Json) : Option TurnEnd := do
  let reason ← field "reason" data
  let kind ← (field "kind" reason).bind nonEmptyString
  let error ← optionalField Codex.errorFieldsSchema "error" reason
  some { kind, error }

/-- `TURN_END_FAILURES`. -/
def turnEndFailures : List (JsString × JsString) :=
  [("aborted", "The DeepSeek Harness turn was cancelled before it completed."),
    ("blocked", "The DeepSeek Harness turn was blocked before it completed."),
    ("error", "The DeepSeek Harness turn ended in an error."),
    ("max-tokens", "The DeepSeek Harness turn reached its output-token ceiling."),
    ("interrupted", "The DeepSeek Harness turn was interrupted and never completed.")]

/-- The names every object inherits a value under. None of the values is a string. -/
def inheritedNames : List JsString :=
  ["constructor", "__defineGetter__", "__defineSetter__", "hasOwnProperty", "__lookupGetter__",
    "__lookupSetter__", "isPrototypeOf", "propertyIsEnumerable", "toString", "valueOf",
    "__proto__", "toLocaleString"]

/-- `TURN_END_FAILURES[kind]`: a text of its own, or what it inherits. -/
def turnEndFailure (kind : JsString) : Option ErrorMessage :=
  match turnEndFailures.lookup kind with
  | some text => some (.text text)
  | none => if kind ∈ inheritedNames then some .other else none

/-- `kind.replaceAll("-", "_")` under the prefix of an ending's code. -/
def turnEndCode (kind : JsString) : JsString :=
  ("harness_turn_" : JsString) ++ kind.map fun u => if u = 0x2D then 0x5F else u

/-- How a `turn/end` ends the turn. A kind it does not know completes it. -/
def turnEndSteps (turnEnd : TurnEnd) : List HarnessStep :=
  match turnEndFailure turnEnd.kind with
  | none => [.complete none]
  | some failure =>
    [.failed
      { code := (turnEnd.error.bind Codex.ErrorFields.code).getD (turnEndCode turnEnd.kind)
        message := ((turnEnd.error.bind Codex.ErrorFields.message).map ErrorMessage.text).getD
          failure
        retryable := some true }]

/-- A call whose arguments do not parse fails the turn. -/
def toolCallSteps (parse : JsString → Option Json) (call : ToolCallEvent) : List HarnessStep :=
  match parseToolArguments parse call.arguments with
  | none => [argumentsUnparseable "DeepSeek Harness sent tool arguments that are not a JSON object."]
  | some parsed => [.toolCall call.callId call.name parsed]

/-- What one event yields. -/
def eventSteps (parse : JsString → Option Json) (event : SessionEvent) : List HarnessStep :=
  if event.type = "tool/call" then
    match toolCallEventSchema event.data with
    | none => []
    | some call => toolCallSteps parse call
  else if event.type = "assistant/message" then
    match assistantMessageEventSchema event.data with
    | none => []
    | some content => contentBlockSteps content none
  else if event.type = "turn/end" then
    match turnEndEventSchema event.data with
    | none => []
    | some turnEnd => turnEndSteps turnEnd
  else []

/-- `deepseekProtocol.interpret`. -/
def interpret (parse : JsString → Option Json) (frame : Json) : List HarnessStep :=
  match readEvent frame with
  | none => []
  | some event => eventSteps parse event

end DeepSeek

/-! ## The four -/

/-- The harnesses a protocol is there for. -/
inductive HarnessVendor where
  | claudeCode
  | pi
  | codex
  | deepseek
  deriving DecidableEq

/-- `interpret` of a vendor's protocol, over the host's `JSON.parse`. -/
def HarnessVendor.interpret (parse : JsString → Option Json) :
    HarnessVendor → Json → List HarnessStep
  | .claudeCode => ClaudeCode.interpret
  | .pi => Pi.interpret
  | .codex => Codex.interpret parse
  | .deepseek => DeepSeek.interpret parse

end SharedOS.Adapters
