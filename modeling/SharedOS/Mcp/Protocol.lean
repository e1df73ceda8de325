/-
SharedOS.Mcp.Protocol — the JSON-RPC shapes the MCP surface speaks.

A message is a JSON value whose objects have distinct keys. It is a request, a notification or
neither, and each shape is read by one schema. An object is read through its fields, so that one
the shape does not name passes through.

A request has an identifier, a text or a number, and is answered under it; a notification is not
answered, whatever it says. What is neither is refused, under the identifier it may still have.

The revisions of the protocol that the server speaks are a list, and the newest is offered to a client
that asks for none of them.

Of a call's parameters the name is a text with something in it and the arguments an object. That is
all they are held to here. What a tool call must be is asked later, of the call that is made of them
(`Mcp.Server`).
-/
import SharedOS.Contracts.Capability

namespace SharedOS.Mcp

open SharedOS.Foundation SharedOS.Contracts

/-! ## Reading an object -/

/-- The value an object has under a key. -/
def field (key : JsString) : Json → Option Json
  | .obj entries => entries.lookup key
  | _ => none

/-- `schema.optional()` on a field. -/
def optionalField {α : Type} (schema : Json → Option α) (key : JsString) (value : Json) :
    Option (Option α) :=
  match field key value with
  | none => some none
  | some v => (schema v).map some

/-- `z.string()`. -/
def stringSchema : Json → Option JsString
  | .str s => some s
  | _ => none

/-- `z.string().min(1)`. -/
def nonEmptyString : Json → Option JsString
  | .str s => if 1 ≤ s.length then some s else none
  | _ => none

/-- `z.record(z.unknown())`: the object is rebuilt, without `__proto__`. -/
def recordSchema : Json → Option Json
  | .obj entries => some (.obj (entries.filter fun entry => entry.1 ≠ "__proto__"))
  | _ => none

/-! ## Messages -/

/-- What a request is answered under. -/
inductive JsonRpcId where
  | str (s : JsString)
  | num (x : JsNumber)
  deriving DecidableEq

/-- A text or a number. -/
def jsonRpcIdSchema : Json → Option JsonRpcId
  | .str s => some (.str s)
  | .num .nan => none
  | .num x => some (.num x)
  | _ => none

/-- The message says that it is JSON-RPC 2.0. -/
def isJsonRpc (message : Json) : Bool :=
  ((field "jsonrpc" message).bind stringSchema).any fun version : JsString => version = "2.0"

/-- A message that is to be answered. -/
structure JsonRpcRequest where
  id : JsonRpcId
  method : JsString
  params : Option Json

/-- Read a request. -/
def jsonRpcRequestSchema (message : Json) : Option JsonRpcRequest := do
  let id ← (field "id" message).bind jsonRpcIdSchema
  let method ← (field "method" message).bind nonEmptyString
  if isJsonRpc message then some { id, method, params := field "params" message } else none

/-- `JsonRpcNotificationSchema`, of which the method is read. -/
def jsonRpcNotificationSchema (message : Json) : Option JsString := do
  let method ← (field "method" message).bind nonEmptyString
  if isJsonRpc message ∧ (field "id" message).isNone then some method else none

/-- The id of a message that is neither, where it has one that can be answered to. -/
def idOf (message : Json) : Option JsonRpcId :=
  match field "id" message with
  | some (.str s) => some (.str s)
  | some (.num x) => some (.num x)
  | _ => none

/-! ## Answers -/

/-- What arrived is no JSON. -/
def jsonRpcParseError : ℤ := -32700

/-- What arrived is no message. -/
def jsonRpcInvalidRequest : ℤ := -32600

/-- Nothing here has the method. -/
def jsonRpcMethodNotFound : ℤ := -32601

/-- The parameters are not the method's. -/
def jsonRpcInvalidParams : ℤ := -32602

/-- Answering failed. -/
def jsonRpcInternalError : ℤ := -32603

/-- An answer, under the identifier it answers where there was one. -/
inductive JsonRpcResponse where
  | success (id : JsonRpcId) (result : Json)
  | failure (id : Option JsonRpcId) (code : ℤ) (message : JsString)

/-- `jsonRpcResult`. -/
def jsonRpcResult (id : JsonRpcId) (result : Json) : JsonRpcResponse := .success id result

/-- `jsonRpcError`. -/
def jsonRpcError (id : Option JsonRpcId) (code : ℤ) (message : JsString) : JsonRpcResponse :=
  .failure id code message

/-! ## Parameters -/

/-- `InitializeParamsSchema`, of which the protocol version is read. -/
def initializeParamsSchema (params : Json) : Option (Option JsString) := do
  let _ ← recordSchema params
  let protocolVersion ← optionalField nonEmptyString "protocolVersion" params
  let _ ← optionalField recordSchema "capabilities" params
  let clientInfo ← optionalField recordSchema "clientInfo" params
  let _ ← clientInfo.elim (some none) (optionalField stringSchema "name")
  let _ ← clientInfo.elim (some none) (optionalField stringSchema "version")
  some protocolVersion

/-- The parameters of a `tools/call`. -/
structure CallToolParams where
  name : JsString
  arguments : Option Json

/-- `CallToolParamsSchema`. A `_meta` that is there is an object. -/
def callToolParamsSchema (params : Json) : Option CallToolParams := do
  let name ← (field "name" params).bind nonEmptyString
  let arguments ← optionalField recordSchema "arguments" params
  let _ ← optionalField recordSchema "_meta" params
  some { name, arguments }

/-! ## Protocol revisions -/

/-- Newest first. -/
def supportedMcpProtocolVersions : List JsString := ["2025-06-18", "2025-03-26", "2024-11-05"]

/-- The newest revision. -/
def latestMcpProtocolVersion : JsString := "2025-06-18"

/-- A revision this server knows is agreed to, and any other request is answered with the newest. -/
def negotiateProtocolVersion (requested : Option JsString) : JsString :=
  (requested.filter fun version => version ∈ supportedMcpProtocolVersions).getD
    latestMcpProtocolVersion

end SharedOS.Mcp
