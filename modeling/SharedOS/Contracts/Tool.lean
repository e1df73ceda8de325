/-
SharedOS.Contracts.Tool — tool definitions, calls and results.

A definition binds a tool to one permission requirement and says what a retry may assume of it:
`readWrite` and the annotations. The requirement is a ceiling: what a call is decided on may be
narrower, never wider. A definition's name is bounded by the alphabet and the length that every wire
name of it is made within (`Mcp.ToolNames`).

A call names its tool and carries arguments that a model wrote, with the trace it belongs to. A result
names the call and the tool it answers, so that an answer to another call can be told and refused. It
is in one of three statuses, and the two that are not a success carry a protocol error: a code for
programs, a message for people, and whether a retry may help.

Metadata and details are JSON objects of anyone's making. The schemas parse them and nothing here
reads them.
-/
import SharedOS.Contracts.Access

namespace SharedOS.Contracts

open SharedOS.Foundation

/-! ## Definitions -/

/-- Whether a tool only reads. -/
inductive ToolReadWrite where
  | read
  | write
  deriving DecidableEq

/-- What a definition may promise beyond its classification. -/
structure ToolAnnotations where
  readOnly : Option Bool
  destructive : Option Bool
  idempotent : Option Bool
  deriving DecidableEq

/-- A tool bound to one permission requirement. -/
structure ToolDefinition where
  name : JsString
  description : JsString
  «namespace» : JsString
  source : JsString
  readWrite : ToolReadWrite
  inputSchema : Json
  outputSchema : Option Json
  requiredCapability : CapabilityRequirement
  annotations : Option ToolAnnotations
  metadata : Option Json

/-- The alphabet of a canonical tool identity. -/
def isToolNameUnit (u : CodeUnit) : Bool :=
  (0x41 ≤ u && u ≤ 0x5A) || (0x61 ≤ u && u ≤ 0x7A) || (0x30 ≤ u && u ≤ 0x39) ||
    u == 0x5F || u == 0x2E || u == 0x2D

/-- `ToolNameSchema`. Nothing is trimmed. -/
def toolNameSchema (s : JsString) : Option JsString :=
  if 1 ≤ s.length ∧ s.length ≤ 128 ∧ s.all isToolNameUnit then some s else none

/-- `z.string().min(1).max(limit)`. -/
def boundedString (limit : Nat) (s : JsString) : Option JsString :=
  if 1 ≤ s.length ∧ s.length ≤ limit then some s else none

/-- The annotations agree with the read or write classification. -/
def annotationsAgree (readWrite : ToolReadWrite) (annotations : Option ToolAnnotations) : Bool :=
  match readWrite, annotations with
  | _, none => true
  | .read, some a => a.destructive ≠ some true
  | .write, some a => a.readOnly ≠ some true

/-- `ToolDefinitionSchema`. -/
def toolDefinitionSchema (d : ToolDefinition) : Option ToolDefinition := do
  let name ← toolNameSchema d.name
  let description ← boundedString 8192 d.description
  let «namespace» ← identifierSchema d.namespace
  let source ← identifierSchema d.source
  let inputSchema ← jsonObjectSchema d.inputSchema
  let outputSchema ← optionalSchema jsonObjectSchema d.outputSchema
  let requiredCapability ← capabilityRequirementSchema d.requiredCapability
  let metadata ← optionalSchema jsonObjectSchema d.metadata
  if annotationsAgree d.readWrite d.annotations then
    some { name, description, «namespace», source, readWrite := d.readWrite, inputSchema,
           outputSchema, requiredCapability, annotations := d.annotations, metadata }
  else none

/-! ## Calls and results -/

/-- One call of a tool. -/
structure ToolCall where
  id : JsString
  tool : JsString
  arguments : Json
  traceId : JsString
  requestedAt : JsString

/-- Why an operation did not succeed. -/
structure ProtocolError where
  code : JsString
  message : JsString
  retryable : Option Bool
  details : Option Json

/-- How a call came out. -/
inductive ToolStatus where
  | succeeded
  | denied
  | failed
  deriving DecidableEq

/-- How a call came out: its output, or the error of the two other statuses. -/
inductive ToolOutcome where
  | succeeded (output : Json)
  | denied (error : ProtocolError)
  | failed (error : ProtocolError)

/-- What a call is answered with. -/
structure ToolResult where
  callId : JsString
  tool : JsString
  completedAt : JsString
  outcome : ToolOutcome
  metadata : Option Json

/-- The status an outcome is of. -/
def ToolOutcome.status : ToolOutcome → ToolStatus
  | .succeeded _ => .succeeded
  | .denied _ => .denied
  | .failed _ => .failed

/-- The status of a result. -/
def ToolResult.status (result : ToolResult) : ToolStatus := result.outcome.status

/-- The code of the error a result carries. -/
def ToolResult.errorCode (result : ToolResult) : Option JsString :=
  match result.outcome with
  | .succeeded _ => none
  | .denied error | .failed error => some error.code

/-- `ProtocolErrorSchema`. -/
def protocolErrorSchema (e : ProtocolError) : Option ProtocolError := do
  let code ← identifierSchema e.code
  let message ← boundedString 4096 e.message
  let details ← optionalSchema jsonObjectSchema e.details
  some { code, message, retryable := e.retryable, details }

/-- The schema of an outcome, by its status. -/
def toolOutcomeSchema : ToolOutcome → Option ToolOutcome
  | .succeeded output => (jsonSchema output).map .succeeded
  | .denied error => (protocolErrorSchema error).map .denied
  | .failed error => (protocolErrorSchema error).map .failed

/-- `ToolResultSchema`. -/
def toolResultSchema [HostPlatform] (r : ToolResult) : Option ToolResult := do
  let callId ← identifierSchema r.callId
  let tool ← identifierSchema r.tool
  let completedAt ← timestampSchema r.completedAt
  let outcome ← toolOutcomeSchema r.outcome
  let metadata ← optionalSchema jsonObjectSchema r.metadata
  some { callId, tool, completedAt, outcome, metadata }

theorem boundedString_eq {limit : Nat} {s t : JsString} (h : boundedString limit s = some t) :
    t = s ∧ boundedString limit s = some s := by
  unfold boundedString at h ⊢
  split at h
  · next hlength =>
      cases h
      exact ⟨rfl, if_pos hlength⟩
  · cases h

theorem protocolErrorSchema_idem {e e' : ProtocolError} (h : protocolErrorSchema e = some e') :
    protocolErrorSchema e' = some e' := by
  unfold protocolErrorSchema at h
  simp only [Option.bind_eq_bind, Option.bind_eq_some_iff] at h
  obtain ⟨code, hcode, message, hmessage, details, hdetails, heq⟩ := h
  obtain rfl := Option.some.inj heq
  obtain ⟨rfl, hmessage⟩ := boundedString_eq hmessage
  unfold protocolErrorSchema
  dsimp only
  rw [show identifierSchema code = some code from trimmedString_idem hcode, hmessage,
    optionalSchema_idem (fun _ _ => jsonObjectSchema_idem) hdetails]
  rfl

theorem toolOutcomeSchema_idem {o o' : ToolOutcome} (h : toolOutcomeSchema o = some o') :
    toolOutcomeSchema o' = some o' := by
  cases o with
  | succeeded output =>
      obtain ⟨parsed, hparsed, rfl⟩ := Option.map_eq_some_iff.mp h
      show (jsonSchema parsed).map _ = _
      rw [jsonSchema_idem hparsed, Option.map_some]
  | denied error =>
      obtain ⟨parsed, hparsed, rfl⟩ := Option.map_eq_some_iff.mp h
      show (protocolErrorSchema parsed).map _ = _
      rw [protocolErrorSchema_idem hparsed, Option.map_some]
  | failed error =>
      obtain ⟨parsed, hparsed, rfl⟩ := Option.map_eq_some_iff.mp h
      show (protocolErrorSchema parsed).map _ = _
      rw [protocolErrorSchema_idem hparsed, Option.map_some]

/-- **A parsed result is its own parse.** -/
theorem toolResultSchema_idem [HostPlatform] {r r' : ToolResult} (h : toolResultSchema r = some r') :
    toolResultSchema r' = some r' := by
  unfold toolResultSchema at h
  simp only [Option.bind_eq_bind, Option.bind_eq_some_iff] at h
  obtain ⟨callId, hcallId, tool, htool, completedAt, hcompletedAt, outcome, houtcome, metadata,
    hmetadata, heq⟩ := h
  obtain rfl := Option.some.inj heq
  unfold toolResultSchema
  dsimp only
  rw [show identifierSchema callId = some callId from trimmedString_idem hcallId,
    show identifierSchema tool = some tool from trimmedString_idem htool,
    timestampSchema_idem hcompletedAt, toolOutcomeSchema_idem houtcome,
    optionalSchema_idem (fun _ _ => jsonObjectSchema_idem) hmetadata]
  rfl

/-- Parsing a result keeps its status. -/
theorem toolOutcomeSchema_status {o o' : ToolOutcome} (h : toolOutcomeSchema o = some o') :
    o'.status = o.status := by
  cases o <;> obtain ⟨_, _, rfl⟩ := Option.map_eq_some_iff.mp h <;> rfl

end SharedOS.Contracts
