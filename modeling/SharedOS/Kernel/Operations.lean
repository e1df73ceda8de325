/-
SharedOS.Kernel.Operations — the operations that do work besides a tool call.

A resource operation and a message run the same course: authority, one decision that spends a use,
a port of the host's, one record. Each exit writes its own record, as a tool call's does. What the
port is differs, so these are programs over an interface that has the ports beside what a kernel
operation asks.
-/
import SharedOS.Contracts.Message
import SharedOS.Contracts.Resource
import SharedOS.Foundation.Embedding
import SharedOS.Kernel.InvokeTool

namespace SharedOS.Kernel

open SharedOS.Foundation SharedOS.Contracts SharedOS.Core

/-! ## Resource providers -/

/-- What a caller of `invokeResource` asks for. -/
structure ResourceInvocationRequest where
  operationId : JsString
  resource : ResourceRef
  action : JsString
  input : Option Json
  metadata : Option Json

/-- What the caller asks, decided on: `request.resource.owner ?? context.owner`. -/
def ResourceInvocationRequest.owned (request : ResourceInvocationRequest)
    (context : AccessContext) : ResourceInvocationRequest :=
  { request with
    resource :=
      { request.resource with owner := some (request.resource.owner.getD context.owner) } }

/-- The capability the request needs: the resource and the action it names. -/
def ResourceInvocationRequest.requirement (request : ResourceInvocationRequest) :
    CapabilityRequirement where
  resource := request.resource
  action := request.action

/-- What the provider is handed: the request under the context it was authorized in. -/
def toResourceOperation (context : AccessContext) (request : ResourceInvocationRequest) :
    ResourceOperation where
  operationId := request.operationId
  context := context
  resource := request.resource
  action := request.action
  input := request.input
  metadata := request.metadata

/-- A provider, whose `invoke` is host code that `implementation` names. -/
structure ResourceProvider where
  «namespace» : JsString
  implementation : ℕ

/-- How a provider is refused at registration. -/
inductive ProviderRegistrationError where
  /-- "resource namespace must not be empty" -/
  | emptyNamespace
  | duplicate (name : JsString)
  deriving DecidableEq

/-- Providers of distinct namespaces, in the order they were registered. -/
structure ResourceProviderRegistry where
  providers : List ResourceProvider
  distinct : (providers.map ResourceProvider.namespace).Nodup

namespace ResourceProviderRegistry

/-- A registry before anything is registered. -/
def empty : ResourceProviderRegistry := ⟨[], List.nodup_nil⟩

/-- The provider of a namespace. -/
def get (registry : ResourceProviderRegistry) (name : JsString) : Option ResourceProvider :=
  registry.providers.find? fun provider => provider.namespace = name

/-- Whether the namespace has a provider. -/
def has (registry : ResourceProviderRegistry) (name : JsString) : Bool := (registry.get name).isSome

theorem get_mem {registry : ResourceProviderRegistry} {name : JsString}
    {provider : ResourceProvider} (h : registry.get name = some provider) :
    provider ∈ registry.providers ∧ provider.namespace = name := by
  refine ⟨List.mem_of_find?_eq_some h, ?_⟩
  simpa using List.find?_some h

/-- The providers with one more, of a namespace none of them has. -/
def add (registry : ResourceProviderRegistry) (provider : ResourceProvider)
    (h : registry.has provider.namespace = false) : ResourceProviderRegistry where
  providers := registry.providers ++ [provider]
  distinct := by
    rw [List.map_append, List.nodup_append]
    refine ⟨registry.distinct, List.nodup_singleton _, ?_⟩
    rintro _ hname _ hnew rfl
    obtain ⟨other, hmem, hother⟩ := List.mem_map.mp hname
    have hfree : registry.get provider.namespace = none := by simpa [has] using h
    have hnone := List.find?_eq_none.mp hfree other hmem
    simp only [List.map_cons, List.map_nil, List.mem_singleton] at hnew
    exact hnone (by simpa [hnew] using hother)

/-- `register`. -/
def register (registry : ResourceProviderRegistry) (provider : ResourceProvider) :
    Except ProviderRegistrationError ResourceProviderRegistry :=
  if provider.namespace.length = 0 then .error .emptyNamespace
  else
    match h : registry.has provider.namespace with
    | true => .error (.duplicate provider.namespace)
    | false => .ok (registry.add provider h)

end ResourceProviderRegistry

/-! ## What an operation asks -/

/-- What the operations are installed with, besides the kernel's own ports. -/
structure OperationPorts where
  resources : ResourceProviderRegistry
  hasMessageTransport : Bool

/-- What an operation asks: what the kernel asks, and the ports a provider or a transport is behind.
-/
inductive OperationOp where
  | kernel (o : KernelOp)
  | invokeProvider (provider : ResourceProvider) (operation : ResourceOperation)
  | resolveMessageCapability (context : AccessContext) (envelope : FullMessageEnvelope)
  | deliver (context : AccessContext) (envelope : FullMessageEnvelope)

/-- The answer of each port. One that may throw answers settled. -/
abbrev OperationOp.Answer : OperationOp → Type
  | .kernel o => o.Answer
  | .invokeProvider .. => PortAnswer ResourceResult
  | .resolveMessageCapability .. => Settled CapabilityRequirement
  | .deliver .. => PortAnswer MessageDeliveryResult

/-- How an operation rejects. -/
inductive OperationError where
  /-- "message envelope does not match the SharedOS contract" -/
  | notTheContract
  | kernel (error : KernelError)
  deriving DecidableEq

/-- The programs of the operations. -/
abbrev OperationM := Program OperationOp OperationOp.Answer OperationError

/-- One question of an operation with its answer. -/
abbrev OperationEvent := Event OperationOp.Answer

/-- What an operation has asked, with the answers. -/
abbrev OperationTrace := List OperationEvent

/-- A part of the kernel in an operation. -/
def within {α : Type} (p : KernelM α) : OperationM α :=
  Program.embed OperationOp.kernel (fun _ x => x) OperationError.kernel p

/-- Ask one of the ports. -/
def enter (o : OperationOp) : OperationM o.Answer := Program.perform o

/-! ## The port -/

/-- `#invokePort`, over whichever port `invoke` asks. -/
def enterPort {α : Type} (kernel : SharedOSKernel) (invoke : OperationM (PortAnswer α))
    (port : PortHandling α) : OperationM α := do
  within throwIfAborted
  let answer ← invoke
  within (settlePort kernel port answer)

variable [HostPlatform]

/-- What a caller is told where its authority could not be loaded. -/
def authorityUnavailableMessage : JsString :=
  "Authority could not be loaded from its trusted source"

/-! ## A resource operation -/

/-- The code a result that did not succeed carries. -/
def resourceErrorCode (result : ResourceResult) : Option JsString :=
  match result.outcome with
  | .succeeded _ => none
  | .denied error | .failed error => some error.code

/-- A resource operation answered without its provider's result. -/
def refusedResourceResult (request : ResourceInvocationRequest)
    (status : ProtocolError → ToolOutcome) (completedAt code message : JsString) :
    ResourceResult where
  operationId := request.operationId
  completedAt := completedAt
  outcome := status { code, message, retryable := some false, details := none }
  metadata := none

/-- The `resource.invoked` record. -/
def resourceInvoked (request : ResourceInvocationRequest) (outcome : AuditOutcome)
    (reasonCode grantId : Option JsString) : AuditEventInput where
  type := .resourceInvoked
  outcome := outcome
  operationId := some request.operationId
  resource := some request.resource
  action := some request.action
  grantId := grantId
  source := some .kernel
  reason := reasonCode
  failClosed := failClosedFor reasonCode

/-- The `resource.invoked` record of a result. -/
def resourceEnded (request : ResourceInvocationRequest) (result : ResourceResult)
    (grantId : Option JsString) : AuditEventInput :=
  resourceInvoked request (statusOutcome result.outcome.status) (resourceErrorCode result)
    grantId

omit [HostPlatform] in
/-- Stamp a record about an operation, and write it. -/
def recordAbout (kernel : SharedOSKernel) (context : AccessContext) (input : AuditEventInput) :
    KernelM Unit := do
  let event ← stampEvent context input
  recordOutcome kernel event

/-- `#recordResourceResult`. -/
def recordResourceResult (kernel : SharedOSKernel) (context : AccessContext)
    (request : ResourceInvocationRequest) (result : ResourceResult) (grantId : Option JsString) :
    KernelM Unit :=
  recordAbout kernel context (resourceEnded request result grantId)

/-- Record a refusal and answer with it. -/
def refuseResource (kernel : SharedOSKernel) (context : AccessContext)
    (request : ResourceInvocationRequest) (status : ProtocolError → ToolOutcome)
    (code message : JsString) (grantId : Option JsString) : KernelM ResourceResult := do
  let result := refusedResourceResult request status context.now code message
  recordResourceResult kernel context request result grantId
  pure result

/-- The kernel's reading of what a provider answered. -/
def acceptResourceResult (request : ResourceInvocationRequest) (candidate : ResourceResult) :
    Option ResourceResult :=
  (resourceResultSchema candidate).filter fun parsed => parsed.operationId = request.operationId

/-- The provider, as `#invokePort` handles it. -/
def resourcePort (kernel : SharedOSKernel) (context : AccessContext)
    (request : ResourceInvocationRequest) (grantId : Option JsString) :
    PortHandling ResourceResult where
  context := context
  accept := acceptResourceResult request
  refuse code message := refusedResourceResult request .failed context.now code message
  invalid :=
    ("invalid_resource_result", "The resource provider returned an invalid protocol result")
  failed := ("resource_execution_failed", "The resource provider failed while executing")
  operation :=
    { kind := .resource
      operationId := some request.operationId
      resource := some request.resource
      action := some request.action }
  interrupted reasonCode :=
    recordAbout kernel context (resourceInvoked request .interrupted (some reasonCode) grantId)

/-- The provider, once the decision has allowed it. -/
def runProvider (kernel : SharedOSKernel) (ports : OperationPorts) (context : AccessContext)
    (request : ResourceInvocationRequest) (grantId : Option JsString) :
    OperationM ResourceResult :=
  match ports.resources.get request.resource.namespace with
  | none =>
    within (refuseResource kernel context request .failed "resource_provider_not_found"
      "No provider is registered for the requested resource namespace" grantId)
  | some provider => do
    let result ← enterPort kernel
      (enter (.invokeProvider provider (toResourceOperation context request)))
      (resourcePort kernel context request grantId)
    within (recordResourceResult kernel context request result grantId)
    pure result

/-- `invokeResource`. -/
def invokeResource (kernel : SharedOSKernel) (ports : OperationPorts) (context : AccessContext)
    (asked : ResourceInvocationRequest) : OperationM ResourceResult := do
  within throwIfAborted
  let request := asked.owned context
  match ← within (resolveTurnAuthority kernel context) with
  | .unavailable .. =>
    within (refuseResource kernel context request .denied
      AuthorizationReasonCode.authorityUnavailable.text authorityUnavailableMessage none)
  | .resolved authority => do
    let decision ← within
      (decideAndRecord kernel context authority request.requirement true none)
    if decision.allowed then runProvider kernel ports context request decision.matchedGrantId
    else
      within (refuseResource kernel context request .denied decision.reasonCode.text
        "The access context does not grant this resource capability" none)

/-! ## A message -/

/-- The outcome a delivery is recorded under. What was accepted has succeeded. -/
def deliveryRecorded : DeliveryOutcome → AuditOutcome
  | .accepted | .delivered => .succeeded
  | .denied _ => .denied
  | .failed _ => .failed

/-- The code a delivery that did not succeed carries. -/
def deliveryErrorCode : DeliveryOutcome → Option JsString
  | .accepted | .delivered => none
  | .denied error | .failed error => some error.code

/-- The result of a message the kernel did not hand to the transport. -/
def refusedMessageResult (envelope : FullMessageEnvelope)
    (status : ProtocolError → DeliveryOutcome) (completedAt code message : JsString) :
    MessageDeliveryResult where
  messageId := envelope.id
  timestamp := completedAt
  outcome := status { code, message, retryable := some false, details := none }
  metadata := none

/-- The `message.sent` record. -/
def messageSent (envelope : FullMessageEnvelope) (operationId : Option JsString)
    (outcome : AuditOutcome) (reasonCode grantId : Option JsString) : AuditEventInput where
  type := .messageSent
  outcome := outcome
  messageId := some envelope.id
  receiver := some envelope.receiver
  operationId := operationId
  grantId := grantId
  source := some .kernel
  reason := reasonCode
  failClosed := failClosedFor reasonCode

/-- The `message.sent` record of a result. -/
def messageEnded (envelope : FullMessageEnvelope) (operationId : Option JsString)
    (result : MessageDeliveryResult) (grantId : Option JsString) : AuditEventInput :=
  messageSent envelope operationId (deliveryRecorded result.outcome)
    (deliveryErrorCode result.outcome) grantId

/-- `#recordMessageResult`. -/
def recordMessageResult (kernel : SharedOSKernel) (context : AccessContext)
    (envelope : FullMessageEnvelope) (result : MessageDeliveryResult)
    (grantId operationId : Option JsString) : KernelM Unit :=
  recordAbout kernel context (messageEnded envelope operationId result grantId)

/-- Record a refusal and answer with it. -/
def refuseMessage (kernel : SharedOSKernel) (context : AccessContext)
    (envelope : FullMessageEnvelope) (status : ProtocolError → DeliveryOutcome)
    (code message : JsString) (grantId operationId : Option JsString) :
    KernelM MessageDeliveryResult := do
  let result := refusedMessageResult envelope status context.now code message
  recordMessageResult kernel context envelope result grantId operationId
  pure result

/-- The kernel's reading of what a transport answered. -/
def acceptReceipt (envelope : FullMessageEnvelope) (receipt : MessageDeliveryResult) :
    Option MessageDeliveryResult :=
  (messageDeliveryResultSchema receipt).filter fun parsed => parsed.messageId = envelope.id

/-- The transport, as `#invokePort` handles it. -/
def transportPort (kernel : SharedOSKernel) (context : AccessContext)
    (envelope : FullMessageEnvelope) (grantId operationId : Option JsString) :
    PortHandling MessageDeliveryResult where
  context := context
  accept := acceptReceipt envelope
  refuse code message := refusedMessageResult envelope .failed context.now code message
  invalid := ("invalid_message_receipt", "The message transport returned a mismatched receipt")
  failed := ("message_delivery_failed", "The message transport failed while delivering the message")
  operation := { kind := .message, operationId }
  interrupted reasonCode :=
    recordAbout kernel context
      (messageSent envelope operationId .interrupted (some reasonCode) grantId)

/-- `#deliverAuthorizedMessage`. -/
def deliverAuthorizedMessage (kernel : SharedOSKernel) (ports : OperationPorts)
    (context : AccessContext) (envelope : FullMessageEnvelope)
    (grantId operationId : Option JsString) : OperationM MessageDeliveryResult :=
  if ports.hasMessageTransport then do
    let result ← enterPort kernel (enter (.deliver context envelope))
      (transportPort kernel context envelope grantId operationId)
    within (recordMessageResult kernel context envelope result grantId operationId)
    pure result
  else
    within (refuseMessage kernel context envelope .failed "message_transport_not_configured"
      "No message transport is configured" grantId operationId)

/-- The sender, the purpose and the trace are those of the context. -/
def envelopeFitsContext (context : AccessContext) (envelope : FullMessageEnvelope) : Bool :=
  addressesEqual context.actor envelope.sender &&
    context.purpose = envelope.purpose &&
    context.traceId = envelope.traceId

/-- The requirement, the authority, and the one decision. -/
def decideMessage (kernel : SharedOSKernel) (ports : OperationPorts) (context : AccessContext)
    (envelope : FullMessageEnvelope) : OperationM MessageDeliveryResult := do
  match ← enter (.resolveMessageCapability context envelope) with
  | .rejected => do
    within (reportProviderError kernel context "message_requirement_resolution_failed"
      { kind := .message })
    within (refuseMessage kernel context envelope .failed "message_requirement_resolution_failed"
      "The message capability requirement could not be resolved" none none)
  | .fulfilled requirement => do
    match ← within (resolveTurnAuthority kernel context) with
    | .unavailable .. =>
      within (refuseMessage kernel context envelope .denied
        AuthorizationReasonCode.authorityUnavailable.text authorityUnavailableMessage none none)
    | .resolved authority => do
      let decision ← within (decideAndRecord kernel context authority requirement true none)
      if decision.allowed then
        deliverAuthorizedMessage kernel ports context envelope decision.matchedGrantId none
      else
        within (refuseMessage kernel context envelope .denied decision.reasonCode.text
          "The access context does not grant permission to send this message" none none)

/-- `sendMessage`. A candidate that has not the shape of an envelope is absent. -/
def sendMessage (kernel : SharedOSKernel) (ports : OperationPorts) (context : AccessContext)
    (candidate : Option FullMessageEnvelope) : OperationM MessageDeliveryResult := do
  within throwIfAborted
  match candidate.bind messageEnvelopeSchema with
  | none => Program.throw .notTheContract
  | some envelope =>
    if envelopeFitsContext context envelope then decideMessage kernel ports context envelope
    else
      within (refuseMessage kernel context envelope .denied "message_context_mismatch"
        "Message sender, purpose, or trace does not match its access context" none none)

end SharedOS.Kernel
