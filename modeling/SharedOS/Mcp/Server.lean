/-
SharedOS.Mcp.Server — the tool surface of a turn, spoken as MCP over a turn-scoped bridge.

One session as a machine. Its labels are what may happen next: a step of the turn, whose plugin may
call its host directly as well, a message, the catalogue being ready for one request, a mediated
call being back for another, the bridge closing, the transport aborting. Requests interleave with
each other and with the turn.

The server holds no policy. Its one substantive job is translation: a name that is not the published
one is looked for among the portable names, and what is found nowhere goes to the turn as it came. The
turn is the executor's own machine (`Runtime.Executor`), and a request drives it through the same
labels a plugin does, so what the envelope counts, refuses and records of a plugin's call it counts,
refuses and records of a request's.

A refusal is answered in band, as a tool error that says which kind of refusal it was. A transport
fault is answered out of band, with a code of JSON-RPC: what is no message, a method the server does
not have, parameters that are no call's, and whatever was thrown. An aborted request is not answered.
-/
import SharedOS.Kernel.PublishedTool
import SharedOS.Mcp.Protocol
import SharedOS.Runtime.Executor

namespace SharedOS.Mcp

open SharedOS.Foundation SharedOS.Contracts SharedOS.Core SharedOS.Kernel SharedOS.Runtime

/-! ## Names -/

/-- A canonical name for a transport that cannot carry a dot. -/
def portableToolName (name : JsString) : JsString :=
  name.map fun u => if u = 0x2E then 0x5F else u

/-- Map an exposed name back to the canonical one. What matches nothing stays what it is. -/
def resolveCanonicalName (tools : List PublishedToolDefinition) (exposed : JsString) : JsString :=
  if tools.any fun tool => tool.name = exposed then exposed
  else
    match tools.filter fun tool => portableToolName tool.name = exposed with
    | [only] => only.name
    | _ => exposed

/-! ## Translation -/

section Translation

variable [HostPlatform]

/-- Where a tool comes from, in MCP's place for extensions. -/
def sharedOsMeta (metadata : PublishedToolMetadata) : Json :=
  .obj [("sharedos/namespace", .str metadata.namespace), ("sharedos/source", .str metadata.source)]

/-- One published tool in MCP's own shape. -/
def toMcpTool (tool : PublishedToolDefinition) : Json :=
  let stated : List (JsString × Json) :=
    [("annotations", tool.annotations.toJson), ("_meta", sharedOsMeta tool.metadata)]
  .obj (("name", .str tool.name) :: ("description", .str tool.description) ::
    ("inputSchema", tool.inputSchema) :: (optionalEntry "outputSchema" tool.outputSchema ++ stated))

/-- An output as text: a text as it is, anything else as JSON. -/
def renderText : Json → JsString
  | .str output => output
  | output => output.stringify HostPlatform.numberToString

/-- One block of text. -/
def textContent (text : JsString) : Json :=
  .arr [.obj [("type", .str "text"), ("text", .str text)]]

/-- The word of a status. -/
def ToolStatus.text : ToolStatus → JsString
  | .succeeded => "succeeded"
  | .denied => "denied"
  | .failed => "failed"

/-- `isJsonObject`. -/
def isJsonObject : Json → Bool
  | .obj _ => true
  | _ => false

/-- A refusal is a tool error, and its payload says which of the two it is. -/
def refusalToCallToolResult (status : ToolStatus) (error : ProtocolError) : Json :=
  let body : Json :=
    .obj (("status", .str (ToolStatus.text status)) :: ("code", .str error.code) ::
      ("message", .str error.message) :: optionalEntry "retryable" (error.retryable.map .bool))
  .obj [("content", textContent (body.stringify HostPlatform.numberToString)),
    ("isError", .bool true),
    ("_meta", .obj [("sharedos/status", .str (ToolStatus.text status)),
      ("sharedos/code", .str error.code)])]

/-- A `ToolResult` as an MCP `CallToolResult`. -/
def toCallToolResult (result : ToolResult) (published : Option PublishedToolDefinition) : Json :=
  match result.outcome with
  | .succeeded output =>
    let structured := (published.bind PublishedToolDefinition.outputSchema).bind fun _ =>
      if isJsonObject output then some output else none
    let isError : List (JsString × Json) := [("isError", .bool false)]
    .obj (("content", textContent (renderText output)) ::
      (optionalEntry "structuredContent" structured ++ isError))
  | .denied error => refusalToCallToolResult .denied error
  | .failed error => refusalToCallToolResult .failed error

end Translation

/-! ## State -/

/-- What the server says it is. -/
structure McpServerInfo where
  name : JsString
  version : JsString

/-- The options of a server. -/
structure McpToolServer where
  serverInfo : McpServerInfo := { name := "sharedos", version := "1.0.0-preview" }
  instructions : Option JsString := none

/-- What a bridge is opened with, besides the turn's host. -/
structure OpenToolBridgeOptions where
  executionId : JsString
  traceId : JsString
  now : JsString
  tools : List ToolDefinition

/-- A name a client used, and the tool it was taken for. -/
structure ToolAliasRecord where
  «alias» : JsString
  tool : JsString
  at_ : JsString

/-- Where a `tools/call` is. From the moment the turn has taken it, it is known by its place among
the turn's mediated calls. -/
inductive RequestStage where
  /-- Waiting for the catalogue. -/
  | listing
  | calling (tool : JsString) (call : ℕ)
  | answered (call : Option ℕ) (response : JsonRpcResponse)
  /-- `handle` threw. -/
  | thrown (call : Option ℕ)

/-- One `tools/call` that has arrived. -/
structure McpRequest where
  id : JsonRpcId
  name : JsString
  arguments : Json
  stage : RequestStage

/-- Where a session is. -/
structure McpState where
  turn : TurnState
  bridge : Option OpenToolBridgeOptions
  closed : Bool
  /-- The signal the transport hands to every `handle`. -/
  aborted : Bool
  initialized : Bool
  negotiatedVersion : Option JsString
  aliases : List ToolAliasRecord
  /-- Every `tools/call` whose parameters parsed, in order of arrival. -/
  requests : List McpRequest
  /-- The answers to the other messages. -/
  replies : List JsonRpcResponse

/-- A turn and the server over its bridge. -/
structure McpSession where
  turn : Turn
  server : McpToolServer

/-- A session before anything has arrived. -/
def McpState.initial (session : McpSession) : McpState where
  turn := .initial session.turn
  bridge := none
  closed := false
  aborted := false
  initialized := false
  negotiatedVersion := none
  aliases := []
  requests := []
  replies := []

/-! ## The bridge -/

/-- `SharedOSToolBridge.catalog`, past its check that the bridge is open. -/
def OpenToolBridgeOptions.catalog (bridge : OpenToolBridgeOptions) :
    Option (List PublishedToolDefinition) := publishToolCatalog bridge.tools

namespace McpState

/-- `#assertOpen`. -/
def isOpen (s : McpState) : Bool := !s.aborted && !s.closed

/-- Answer. -/
def reply (s : McpState) (response : JsonRpcResponse) : McpState :=
  { s with replies := s.replies ++ [response] }

/-- The answer to a request that could not be answered. -/
def internalError (id : JsonRpcId) : JsonRpcResponse :=
  jsonRpcError (some id) jsonRpcInternalError "SharedOS could not answer this request."

/-- Something `#handle` awaited was thrown. An aborted request is no protocol fault. -/
def fails (s : McpState) (id : JsonRpcId) (call : Option ℕ) : RequestStage :=
  if s.aborted then .thrown call else .answered call (internalError id)

/-- The session, with one request moved on. -/
def setRequest (s : McpState) (k : ℕ) (request : McpRequest) : McpState :=
  { s with requests := s.requests.set k request }

/-! ## Messages -/

/-- `#initialize`: the revision agreed on, and what the server is. -/
def handleInitialize (session : McpSession) (s : McpState) (id : JsonRpcId) (params : Option Json) :
    McpState :=
  let version := negotiateProtocolVersion
    ((initializeParamsSchema (params.getD (.obj []))).bind fun protocolVersion => protocolVersion)
  let serverInfo := session.server.serverInfo
  { s with negotiatedVersion := some version }.reply (jsonRpcResult id (.obj
    (("protocolVersion", .str version) ::
      ("capabilities", .obj [("tools", .obj [("listChanged", .bool false)])]) ::
      ("serverInfo", .obj [("name", .str serverInfo.name), ("version", .str serverInfo.version)]) ::
      optionalEntry "instructions" (session.server.instructions.map .str))))

/-- `tools/list`. The catalogue is the bridge's for as long as it is open, so the answer is made
where the request is taken. -/
def listTools [HostPlatform] (s : McpState) (bridge : OpenToolBridgeOptions) (id : JsonRpcId) :
    McpState :=
  match (if s.isOpen then bridge.catalog else none) with
  | none => if s.aborted then s else s.reply (internalError id)
  | some tools =>
    s.reply (jsonRpcResult id (.obj
      [("tools", .arr (tools.map toMcpTool)),
        ("_meta", .obj [("sharedos/catalogHash", .str (catalogHash tools)),
          ("sharedos/executionId", .str bridge.executionId)])]))

/-- `#callTool` up to its first await. -/
def callTool (s : McpState) (id : JsonRpcId) (params : Option Json) : McpState :=
  match params.bind callToolParamsSchema with
  | none =>
    s.reply (jsonRpcError (some id) jsonRpcInvalidParams "tools/call requires a tool name.")
  | some call =>
    let arguments := call.arguments.getD (.obj [])
    let stage := if s.isOpen then .listing else s.fails id none
    { s with requests := s.requests ++ [{ id, name := call.name, arguments, stage }] }

/-- `#handle`, of a request, by its method. -/
def dispatch [HostPlatform] (session : McpSession) (s : McpState) (bridge : OpenToolBridgeOptions)
    (request : JsonRpcRequest) : McpState :=
  if request.method = "initialize" then s.handleInitialize session request.id request.params
  else if request.method = "ping" then s.reply (jsonRpcResult request.id (.obj []))
  else if request.method = "tools/list" then s.listTools bridge request.id
  else if request.method = "tools/call" then s.callTool request.id request.params
  else
    s.reply (jsonRpcError (some request.id) jsonRpcMethodNotFound
      (JsString.ofString "SharedOS exposes tool discovery and invocation only; " ++ request.method ++
        JsString.ofString " is not implemented."))

/-- `#handle` up to its first await. A notification is not answered, whatever it says. -/
def handle [HostPlatform] (session : McpSession) (s : McpState) (bridge : OpenToolBridgeOptions)
    (message : Json) : McpState :=
  match jsonRpcRequestSchema message with
  | some request => s.dispatch session bridge request
  | none =>
    match jsonRpcNotificationSchema message with
    | some method => if method = "notifications/initialized" then { s with initialized := true } else s
    | none =>
      s.reply (jsonRpcError (idOf message)
        (if idOf message = none then jsonRpcParseError else jsonRpcInvalidRequest)
        "Message is not a JSON-RPC 2.0 request or notification.")

/-! ## A call -/

/-- The call a request is sent to the turn as. -/
def toolCall (bridge : OpenToolBridgeOptions) (request : McpRequest) (tool callId : JsString) :
    ToolCall where
  id := callId
  tool := tool
  arguments := request.arguments
  traceId := bridge.traceId
  requestedAt := bridge.now

/-- The rewrite, where there was one. -/
def noteAlias (s : McpState) (bridge : OpenToolBridgeOptions) (name tool : JsString) : McpState :=
  if tool = name then s
  else { s with aliases := s.aliases ++ [{ «alias» := name, tool, at_ := bridge.now }] }

/-- The catalogue is there, and the request goes to the turn. One the turn does not take is thrown
back at once. -/
def forward [HostPlatform] (session : McpSession) (s : McpState) (k : ℕ) (callId now : JsString) :
    Option McpState := do
  let bridge ← s.bridge
  let request ← s.requests[k]?
  match request.stage with
  | .listing =>
    match bridge.catalog with
    | none => some (s.setRequest k { request with stage := s.fails request.id none })
    | some tools =>
      let tool := resolveCanonicalName tools request.name
      if !s.isOpen then some (s.setRequest k { request with stage := s.fails request.id none })
      else
        let turn ← executorStep session.turn s.turn
          (.invoke (toolCall bridge request tool callId) none now)
        let call := s.turn.ledger.calls.length
        let stage :=
          if call < turn.ledger.calls.length then .calling tool call else s.fails request.id none
        let s := s.noteAlias bridge request.name tool
        some ({ s with turn }.setRequest k { request with stage })
  | _ => none

/-- What the turn answered, as the request is answered. -/
def answer [HostPlatform] (s : McpState) (bridge : OpenToolBridgeOptions) (id : JsonRpcId)
    (tool : JsString) (call : ℕ) : Except Thrown ToolResult → RequestStage
  | .ok result =>
    .answered (some call) (jsonRpcResult id (toCallToolResult result
      (bridge.catalog.bind fun tools => tools.find? fun published => published.name = tool)))
  | .error _ => s.fails id (some call)

/-- The mediated call is back. -/
def respond [HostPlatform] (s : McpState) (k : ℕ) : Option McpState := do
  let bridge ← s.bridge
  let request ← s.requests[k]?
  match request.stage with
  | .calling tool call =>
    let mediated ← s.turn.ledger.calls[call]?
    let settled ← mediated.answer
    some (s.setRequest k { request with stage := s.answer bridge request.id tool call settled })
  | _ => none

end McpState

/-! ## The machine -/

/-- What may happen next in a session. -/
inductive McpLabel where
  | turn (label : TurnLabel)
  /-- The plugin opens its bridge, with what the turn gave it. -/
  | opens (now : JsString)
  | receive (message : Json)
  | forward (k : ℕ) (callId now : JsString)
  | respond (k : ℕ)
  | closes
  | aborts

/-- One step of a session. -/
def mcpStep [HostPlatform] (session : McpSession) (s : McpState) : McpLabel → Option McpState
  | .turn label => (executorStep session.turn s.turn label).map fun turn => { s with turn }
  | .opens now =>
    if s.turn.pluginStarted ∧ s.bridge.isNone then
      let bridge : OpenToolBridgeOptions :=
        { executionId := session.turn.request.executionId
          traceId := session.turn.request.context.traceId
          now
          tools := s.turn.effectiveTools }
      some { s with bridge := some bridge }
    else none
  | .receive message => s.bridge.map fun bridge => s.handle session bridge message
  | .forward k callId now => s.forward session k callId now
  | .respond k => s.respond k
  | .closes => if s.bridge.isSome then some { s with closed := true } else none
  | .aborts => some { s with aborted := true }

end SharedOS.Mcp
