/-
SharedOS.Contracts.Http — the requests and answers of the HTTP surface, and their schemas.

What crosses the wire is stated as the contract states it, which is wider than what the kernel
emits: the reason of a decision is any identifier, a count any integer. A schema parses, so it
answers with the value it accepts, white space trimmed.

Ten routes, each with a path and a method. A request names no authority: a resource operation, a
message and a turn are sent without the context, which the host resolves from the request itself, and
a turn's visible tools are the host's too.

A refused request is answered with a body that names a code and may name the request. The handler's
own codes are a closed list.
-/
import SharedOS.Contracts.Message
import SharedOS.Contracts.Resource

namespace SharedOS.Contracts

open SharedOS.Foundation

/-! ## Decisions and reach -/

/-- A decision as it crosses the wire. -/
structure PortableDecision where
  allowed : Bool
  reasonCode : JsString
  matchedGrantId : Option JsString
  requiredAuthority : Option CapabilityRequest
  metadata : Option Json

/-- `AuthorizationDecisionSchema`. -/
def authorizationDecisionSchema [HostPlatform] (d : PortableDecision) :
    Option PortableDecision := do
  let reasonCode ← identifierSchema d.reasonCode
  let matchedGrantId ← optionalSchema identifierSchema d.matchedGrantId
  let requiredAuthority ← optionalSchema capabilityRequestSchema d.requiredAuthority
  let metadata ← optionalSchema jsonObjectSchema d.metadata
  some { allowed := d.allowed, reasonCode, matchedGrantId, requiredAuthority, metadata }

/-- A reach as it crosses the wire. -/
inductive PortableReach where
  | computed (reach : List ResourceReach)
  | unavailable (reasonCode : JsString)

/-- `ResourceReachSchema`. -/
def resourceReachSchema (entry : ResourceReach) : Option ResourceReach := do
  let «namespace» ← identifierSchema entry.namespace
  let path ← arraySchema pathSegmentSchema 0 64 entry.path
  let actions ← arraySchema actionSchema 1 64 entry.actions
  some { «namespace», path, actions, scope := entry.scope }

/-- `ReachUnavailableReasonSchema`. -/
def reachUnavailableReasons : List JsString := ["authority_unavailable", "usage_store_unavailable"]

/-- `ReachResultSchema`: of the unavailable ones, those for a known reason. -/
def reachResultSchema : PortableReach → Option PortableReach
  | .computed reach => (arraySchema resourceReachSchema 0 16384 reach).map .computed
  | .unavailable reasonCode =>
    if reasonCode ∈ reachUnavailableReasons then some (.unavailable reasonCode) else none

/-! ## Tool namespaces -/

/-- An idempotent patch to a host-owned selection. -/
structure ToolNamespaceUpdate where
  enable : Option (List JsString)
  disable : Option (List JsString)
  deriving DecidableEq

/-- `ToolNamespaceUpdateSchema`: the parsed names are compared. -/
def toolNamespaceUpdateSchema (u : ToolNamespaceUpdate) : Option ToolNamespaceUpdate := do
  let enable ← optionalSchema enabledToolNamespacesSchema u.enable
  let disable ← optionalSchema enabledToolNamespacesSchema u.disable
  if (enable.getD []).isEmpty && (disable.getD []).isEmpty then none
  else if (disable.getD []).any fun name => name ∈ enable.getD [] then none
  else some { enable, disable }

/-- One namespace of a catalogue, and whether it is enabled. -/
structure ToolNamespaceDescriptor where
  «namespace» : JsString
  sources : List JsString
  toolCount : ℤ
  enabled : Bool

/-- How many namespaces there are, of each sort. -/
structure ToolNamespaceSummary where
  total : ℤ
  enabled : ℤ
  disabled : ℤ

/-- The namespaces an actor may enable. -/
structure ToolNamespaceCatalog where
  namespaces : List ToolNamespaceDescriptor
  summary : ToolNamespaceSummary

/-- `ToolNamespaceDescriptorSchema`: a namespace has a tool. -/
def toolNamespaceDescriptorSchema (d : ToolNamespaceDescriptor) :
    Option ToolNamespaceDescriptor := do
  let «namespace» ← identifierSchema d.namespace
  let sources ← arraySchema identifierSchema 1 64 d.sources
  if 0 < d.toolCount ∧ sources.Nodup then
    some { «namespace», sources, toolCount := d.toolCount, enabled := d.enabled }
  else none

/-- The summary a catalogue must carry. -/
def summaryOf (namespaces : List ToolNamespaceDescriptor) : ToolNamespaceSummary where
  total := namespaces.length
  enabled := namespaces.countP fun d => d.enabled
  disabled := namespaces.length - namespaces.countP fun d => d.enabled

/-- `ToolNamespaceCatalogSchema`: at most 256 namespaces, and counts that are not negative. -/
def toolNamespaceCatalogSchema (catalog : ToolNamespaceCatalog) :
    Option ToolNamespaceCatalog := do
  let namespaces ← arraySchema toolNamespaceDescriptorSchema 0 256 catalog.namespaces
  let { total, enabled, disabled } := catalog.summary
  if 0 ≤ total ∧ 0 ≤ enabled ∧ 0 ≤ disabled ∧
      (namespaces.map ToolNamespaceDescriptor.namespace).Nodup ∧
      total = (summaryOf namespaces).total ∧ enabled = (summaryOf namespaces).enabled ∧
      disabled = (summaryOf namespaces).disabled then
    some { namespaces, summary := catalog.summary }
  else none

/-! ## Resource operations -/

/-- Resource operation accepted over HTTP; authority is injected by the host. -/
structure RemoteResourceOperation where
  operationId : JsString
  resource : ResourceRef
  action : JsString
  input : Option Json
  metadata : Option Json

/-- The schema of a resource operation that a client sends. -/
def remoteResourceOperationSchema (o : RemoteResourceOperation) :
    Option RemoteResourceOperation := do
  let operationId ← identifierSchema o.operationId
  let resource ← resourceRefSchema o.resource
  let action ← identifierSchema o.action
  let input ← optionalSchema jsonSchema o.input
  let metadata ← optionalSchema jsonObjectSchema o.metadata
  some { operationId, resource, action, input, metadata }

/-! ## Turns -/

/-- The budgets a client asks for. -/
structure RemoteExecutionOptions where
  maxSteps : Option ℤ
  maxToolCalls : Option ℤ
  timeoutMs : Option ℤ

/-- `z.number().int().positive().max(high)`. -/
def positiveSchema (high : ℤ) (n : ℤ) : Option ℤ := if 0 < n ∧ n ≤ high then some n else none

/-- `ExecutionOptionsSchema`. -/
def executionOptionsSchema (o : RemoteExecutionOptions) : Option RemoteExecutionOptions := do
  let maxSteps ← optionalSchema (positiveSchema 1000) o.maxSteps
  let maxToolCalls ← optionalSchema (positiveSchema 10000) o.maxToolCalls
  let timeoutMs ← optionalSchema (positiveSchema 600000) o.timeoutMs
  some { maxSteps, maxToolCalls, timeoutMs }

/-- Turn request accepted over HTTP; authority and visible tools are host-derived. -/
structure RemoteExecutionRequest where
  version : JsString
  executionId : JsString
  agentId : JsString
  message : FullMessageEnvelope
  state : Option Json
  options : Option RemoteExecutionOptions
  metadata : Option Json

/-- The schema of a turn that a client asks for. -/
def remoteExecutionRequestSchema [HostPlatform] (r : RemoteExecutionRequest) :
    Option RemoteExecutionRequest := do
  let version ← protocolVersionSchema r.version
  let executionId ← identifierSchema r.executionId
  let agentId ← identifierSchema r.agentId
  let message ← messageEnvelopeSchema r.message
  let state ← optionalSchema jsonObjectSchema r.state
  let options ← optionalSchema executionOptionsSchema r.options
  let metadata ← optionalSchema jsonObjectSchema r.metadata
  some { version, executionId, agentId, message, state, options, metadata }

/-- An event with all it carries. -/
structure FullExecutionEvent where
  version : JsString
  eventId : JsString
  executionId : JsString
  traceId : JsString
  sequence : ℤ
  type : JsString
  data : Json
  occurredAt : JsString

/-- `ExecutionEventSchema`. -/
def executionEventSchema [HostPlatform] (e : FullExecutionEvent) : Option FullExecutionEvent := do
  let version ← protocolVersionSchema e.version
  let eventId ← identifierSchema e.eventId
  let executionId ← identifierSchema e.executionId
  let traceId ← identifierSchema e.traceId
  let type ← trimmedString 128 e.type
  let data ← jsonSchema e.data
  let occurredAt ← timestampSchema e.occurredAt
  if 0 ≤ e.sequence then
    some { version, eventId, executionId, traceId, sequence := e.sequence, type, data, occurredAt }
  else none

/-- A stopped turn awaiting a decision, with the authority it asks for. -/
structure FullEscalation where
  reason : JsString
  reviewer : Address
  requestedAt : JsString
  requestedAuthority : Option CapabilityRequest

/-- The schema of an escalation. -/
def escalationSchema [HostPlatform] (e : FullEscalation) : Option FullEscalation := do
  let reason ← trimmedString 512 e.reason
  let reviewer ← e.reviewer.schema
  let requestedAt ← timestampSchema e.requestedAt
  let requestedAuthority ← optionalSchema capabilityRequestSchema e.requestedAuthority
  some { reason, reviewer, requestedAt, requestedAuthority }

/-- How a turn ended, as it is told over the wire. A cancelled one may carry no error. -/
inductive FullTurnEnding where
  | succeeded (output : Json)
  | denied (error : ProtocolError)
  | failed (error : ProtocolError)
  | cancelled (error : Option ProtocolError)
  | escalated (escalation : FullEscalation)

/-- The schema of an ending, by its kind. -/
def turnEndingSchema [HostPlatform] : FullTurnEnding → Option FullTurnEnding
  | .succeeded output => (jsonSchema output).map .succeeded
  | .denied error => (protocolErrorSchema error).map .denied
  | .failed error => (protocolErrorSchema error).map .failed
  | .cancelled error => (optionalSchema protocolErrorSchema error).map .cancelled
  | .escalated escalation => (escalationSchema escalation).map .escalated

/-- A result with all it carries. -/
structure FullExecutionResult where
  version : JsString
  executionId : JsString
  traceId : JsString
  events : List FullExecutionEvent
  startedAt : JsString
  completedAt : JsString
  metadata : Option Json
  ending : FullTurnEnding

/-- `ExecutionResultSchema`. -/
def executionResultSchema [HostPlatform] (r : FullExecutionResult) :
    Option FullExecutionResult := do
  let version ← protocolVersionSchema r.version
  let executionId ← identifierSchema r.executionId
  let traceId ← identifierSchema r.traceId
  let events ← r.events.mapM executionEventSchema
  let startedAt ← timestampSchema r.startedAt
  let completedAt ← timestampSchema r.completedAt
  let metadata ← optionalSchema jsonObjectSchema r.metadata
  let ending ← turnEndingSchema r.ending
  some { version, executionId, traceId, events, startedAt, completedAt, metadata, ending }

/-! ## Errors -/

/-- The codes the handler itself answers with. -/
inductive SharedOSApiErrorCode where
  | invalidAccessContext
  | invalidJson
  | invalidRequest
  | permissionDenied
  | notFound
  | methodNotAllowed
  | internalError
  deriving DecidableEq

/-- The word of an error code. -/
def SharedOSApiErrorCode.text : SharedOSApiErrorCode → JsString
  | .invalidAccessContext => "invalid_access_context"
  | .invalidJson => "invalid_json"
  | .invalidRequest => "invalid_request"
  | .permissionDenied => "permission_denied"
  | .notFound => "not_found"
  | .methodNotAllowed => "method_not_allowed"
  | .internalError => "internal_error"

/-- The body of an error answer. -/
structure SharedOSApiErrorBody where
  code : JsString
  message : JsString
  requestId : Option JsString

/-- `SharedOSApiErrorResponseSchema`, under its `error` member. -/
def apiErrorSchema (e : SharedOSApiErrorBody) : Option SharedOSApiErrorBody := do
  let code ← trimmedString 128 e.code
  let message ← boundedString 8192 e.message
  let requestId ← optionalSchema identifierSchema e.requestId
  some { code, message, requestId }

/-! ## Routes -/

/-- The methods the routes use. -/
inductive SharedOSHttpMethod where
  | get
  | post
  | put
  deriving DecidableEq

/-- The method as a request line has it. -/
def SharedOSHttpMethod.text : SharedOSHttpMethod → JsString
  | .get => "GET"
  | .post => "POST"
  | .put => "PUT"

/-- The routes, by name. -/
inductive SharedOSRouteName where
  | health
  | authorize
  | listTools
  | reach
  | listToolNamespaces
  | updateToolNamespaces
  | invokeTool
  | invokeResource
  | sendMessage
  | executeTurn
  deriving DecidableEq

namespace SharedOSRouteName

/-- The names of `SHAREDOS_ROUTES`, in its order. -/
def all : List SharedOSRouteName :=
  [.health, .authorize, .listTools, .reach, .listToolNamespaces, .updateToolNamespaces,
    .invokeTool, .invokeResource, .sendMessage, .executeTurn]

/-- The path of a route. -/
def path : SharedOSRouteName → JsString
  | .health => "/health"
  | .authorize => "/v1/authorize"
  | .listTools => "/v1/tools"
  | .reach => "/v1/reach"
  | .listToolNamespaces | .updateToolNamespaces => "/v1/tools/namespaces"
  | .invokeTool => "/v1/tools/invoke"
  | .invokeResource => "/v1/resources/invoke"
  | .sendMessage => "/v1/messages"
  | .executeTurn => "/v1/turns"

/-- The method of a route. -/
def method : SharedOSRouteName → SharedOSHttpMethod
  | .health | .listTools | .reach | .listToolNamespaces => .get
  | .authorize | .invokeTool | .invokeResource | .sendMessage | .executeTurn => .post
  | .updateToolNamespaces => .put

end SharedOSRouteName

end SharedOS.Contracts
