/-
SharedOS.Http.Routes — what crosses the wire on each route, in both directions.

`SHAREDOS_ROUTES` is one table the handler routes from and the client calls through. A wire schema is
what either side needs of one entry: how a value is written as JSON, and which JSON is accepted as a
value.
-/
import SharedOS.Contracts.Access
import SharedOS.Contracts.Codecs
import SharedOS.Foundation.JsonText

namespace SharedOS.Http

open SharedOS.Foundation SharedOS.Contracts

/-! ## Wire schemas -/

/-- `WireSchema`: a verdict on JSON, and a typed value. -/
structure WireSchema (α : Type) where
  codec : Codec α
  schema : α → Option α

/-- `safeParse`, of the JSON of a body. -/
def WireSchema.safeParse {α : Type} (wire : WireSchema α) (value : Json) : Option α :=
  (wire.codec.read value).bind wire.schema

/-- What was written is accepted exactly as the schema accepts the value itself. -/
@[simp] theorem WireSchema.safeParse_write {α : Type} (wire : WireSchema α) (a : α) :
    wire.safeParse (wire.codec.write a) = wire.schema a := by
  unfold WireSchema.safeParse
  rw [wire.codec.read_write, Option.bind_some]

/-- The schema of a request, where there is one. -/
inductive RequestSchema : Type → Type 1
  | absent : RequestSchema Unit
  | body {α : Type} (wire : WireSchema α) : RequestSchema α

/-- What the health route answers. -/
structure SharedOSHealth where
  protocolVersion : JsString

theorem status_fresh : JsString.ofString "status" ∉ Members.empty.keys := List.not_mem_nil

/-- How a health answer is written. -/
def sharedOsHealthCodec : Codec SharedOSHealth :=
  (((Members.empty.literal "status" "ok" status_fresh).required "protocolVersion" .text
    (by decide)).strict).view
    (fun (_, protocolVersion) => { protocolVersion }) (fun h => ((), h.protocolVersion))
    (fun _ => rfl)

/-! ## The table -/

/-- What a route is asked with; nothing, where it takes no body. -/
abbrev RouteRequest : SharedOSRouteName → Type
  | .authorize => CapabilityRequirement
  | .updateToolNamespaces => ToolNamespaceUpdate
  | .invokeTool => ToolCall
  | .invokeResource => RemoteResourceOperation
  | .sendMessage => FullMessageEnvelope
  | .executeTurn => RemoteExecutionRequest
  | .health | .listTools | .reach | .listToolNamespaces => Unit

/-- What a route is answered with. -/
abbrev RouteResponse : SharedOSRouteName → Type
  | .health => SharedOSHealth
  | .authorize => PortableDecision
  | .listTools => List ToolDefinition
  | .reach => PortableReach
  | .listToolNamespaces | .updateToolNamespaces => ToolNamespaceCatalog
  | .invokeTool => ToolResult
  | .invokeResource => ResourceResult
  | .sendMessage => MessageDeliveryResult
  | .executeTurn => FullExecutionResult

section Table

variable [HostPlatform]

/-- The `request` of each route, absent for one that takes no body. -/
def requestSchema : (route : SharedOSRouteName) → RequestSchema (RouteRequest route)
  | .authorize => .body ⟨capabilityRequirementCodec, capabilityRequirementSchema⟩
  | .updateToolNamespaces => .body ⟨toolNamespaceUpdateCodec, toolNamespaceUpdateSchema⟩
  | .invokeTool => .body ⟨toolCallCodec, toolCallSchema⟩
  | .invokeResource => .body ⟨remoteResourceOperationCodec, remoteResourceOperationSchema⟩
  | .sendMessage => .body ⟨messageEnvelopeCodec, messageEnvelopeSchema⟩
  | .executeTurn => .body ⟨remoteExecutionRequestCodec, remoteExecutionRequestSchema⟩
  | .health | .listTools | .reach | .listToolNamespaces => .absent

/-- The `response` of each route. -/
def responseSchema : (route : SharedOSRouteName) → WireSchema (RouteResponse route)
  | .health => ⟨sharedOsHealthCodec, fun h => (protocolVersionSchema h.protocolVersion).map .mk⟩
  | .authorize => ⟨portableDecisionCodec, authorizationDecisionSchema⟩
  | .listTools => ⟨.list toolDefinitionCodec, fun tools => tools.mapM toolDefinitionSchema⟩
  | .reach => ⟨portableReachCodec, reachResultSchema⟩
  | .listToolNamespaces | .updateToolNamespaces =>
    ⟨toolNamespaceCatalogCodec, toolNamespaceCatalogSchema⟩
  | .invokeTool => ⟨toolResultCodec, toolResultSchema⟩
  | .invokeResource => ⟨resourceResultCodec, resourceResultSchema⟩
  | .sendMessage => ⟨messageDeliveryResultCodec, messageDeliveryResultSchema⟩
  | .executeTurn => ⟨executionResultCodec, executionResultSchema⟩

end Table

/-! ## Text -/

/-- `JSON.stringify`, then `JSON.parse`, gives the value back: the host writes its numbers so that
they are read back, and it holds nothing JSON text cannot carry. -/
structure TextExact [HostPlatform] (v : Json) : Prop where
  numbers : v.NumbersIn (Json.ReadsBack HostPlatform.numberToString)
  reread : v.reread = v

theorem jsonParse_of_textExact [HostPlatform] {v : Json} (h : TextExact v) :
    jsonParse (v.stringify HostPlatform.numberToString) = some v := by
  rw [jsonParse_stringify h.numbers, h.reread]

end SharedOS.Http
