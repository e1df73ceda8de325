/-
SharedOS.Contracts.Codecs — the JSON form of the contracts' values.

Every object is strict and every union is told by a literal member, as the contracts declare them.
A codec gives the shape; the schema of the same type then bounds what the shape holds. So a value is
read in two steps, and what is true of the shape (a written value reads back, a member that is not
declared is refused) is true of every type at once, by the library's laws.

The codecs are put together with the combinators of `Foundation.Codec`: members one after another,
required, optional or literal, closed by `strict`, and a view that makes the tuple of members the
contract's own record. That no member is declared twice is checked where each is added.

A union needs to know that no value of one side reads as one of the other. Each side is `Tagged`: it
demands its literal of the deciding member, and two sides that demand different words refuse each
other's objects. The `_tagged` lemmas say so for each branch.
-/
import SharedOS.Contracts.Http
import SharedOS.Foundation.Codec

namespace SharedOS.Contracts

open SharedOS.Foundation

/-! ## Addresses -/

/-- The members of an address of one kind. -/
def addressMembers (kind idKey : JsString) (h : idKey ∉ [JsString.ofString "kind"]) :
    Members (Unit × JsString) :=
  (Members.empty.literal "kind" kind (by decide)).required idKey .text h

theorem addressMembers_demands {kind idKey : JsString} {h : idKey ∉ [JsString.ofString "kind"]} :
    (addressMembers kind idKey h).Demands "kind" kind := Members.demands_literal.required

/-- A human's address, told by `kind`. -/
def humanAddressCodec : Codec (Unit × JsString) :=
  (addressMembers "human" "userId" (by decide)).strict

/-- An agent's address. A remote execution names its agent by one of these. -/
def agentAddressCodec : Codec (Unit × JsString) :=
  (addressMembers "agent" "agentId" (by decide)).strict

/-- A group's address: the conversation is its identifier. -/
def groupAddressCodec : Codec (Unit × JsString) :=
  (addressMembers "group" "conversationId" (by decide)).strict

/-- A service's address. -/
def serviceAddressCodec : Codec (Unit × JsString) :=
  (addressMembers "service" "serviceId" (by decide)).strict

theorem humanAddressCodec_tagged : humanAddressCodec.Tagged "kind" "human" :=
  addressMembers_demands.strict

theorem agentAddressCodec_tagged : agentAddressCodec.Tagged "kind" "agent" :=
  addressMembers_demands.strict

theorem groupAddressCodec_tagged : groupAddressCodec.Tagged "kind" "group" :=
  addressMembers_demands.strict

theorem serviceAddressCodec_tagged : serviceAddressCodec.Tagged "kind" "service" :=
  addressMembers_demands.strict

/-- `AddressSchema`. -/
def addressCodec : Codec Address :=
  (humanAddressCodec.either
    (agentAddressCodec.either
      (groupAddressCodec.either serviceAddressCodec
        (groupAddressCodec_tagged.refuses serviceAddressCodec_tagged (by decide)))
      (Codec.refuses_either
        (agentAddressCodec_tagged.refuses groupAddressCodec_tagged (by decide))
        (agentAddressCodec_tagged.refuses serviceAddressCodec_tagged (by decide))))
    (Codec.refuses_either
      (humanAddressCodec_tagged.refuses agentAddressCodec_tagged (by decide))
      (Codec.refuses_either
        (humanAddressCodec_tagged.refuses groupAddressCodec_tagged (by decide))
        (humanAddressCodec_tagged.refuses serviceAddressCodec_tagged (by decide))))).view
    (fun
      | .inl (_, id) => .human id
      | .inr (.inl (_, id)) => .agent id
      | .inr (.inr (.inl (_, id))) => .group id
      | .inr (.inr (.inr (_, id))) => .service id)
    (fun
      | .human id => .inl ((), id)
      | .agent id => .inr (.inl ((), id))
      | .group id => .inr (.inr (.inl ((), id)))
      | .service id => .inr (.inr (.inr ((), id))))
    (by rintro (_ | _ | _ | _) <;> rfl)

/-! ## Capabilities -/

/-- `ResourceRefSchema`. -/
def resourceRefCodec : Codec ResourceRef :=
  ((((Members.empty.required "namespace" .text (by decide)).required "path" (.list .text)
    (by decide)).optional "owner" addressCodec (by decide)).strict).view
    (fun (((_, name), path), owner) => { «namespace» := name, path, owner })
    (fun r => ((((), r.namespace), r.path), r.owner)) (fun _ => rfl)

/-- The two words of a scope. -/
def scopeCodec : Codec Scope :=
  .word [.exact, .descendants]
    (fun
      | .exact => "exact"
      | .descendants => "descendants")
    (by rintro (_ | _) <;> decide)

/-- `CapabilitySchema`. -/
def capabilityCodec : Codec Capability :=
  ((((Members.empty.required "resource" resourceRefCodec (by decide)).required "actions"
    (.list .text) (by decide)).required "scope" scopeCodec (by decide)).strict).view
    (fun (((_, resource), actions), scope) => { resource, actions, scope })
    (fun c => ((((), c.resource), c.actions), c.scope)) (fun _ => rfl)

/-- `CapabilityConstraintsSchema`: every member optional. -/
def capabilityConstraintsCodec : Codec CapabilityConstraints :=
  ((((((Members.empty.optional "purposes" (.list .text) (by decide)).optional "notBefore" .text
    (by decide)).optional "expiresAt" .text (by decide)).optional "maxUses" .integer
    (by decide)).optional "delegationDepth" .integer (by decide)).strict).view
    (fun (((((_, purposes), notBefore), expiresAt), maxUses), delegationDepth) =>
      { purposes, notBefore, expiresAt, maxUses, delegationDepth })
    (fun c => ((((((), c.purposes), c.notBefore), c.expiresAt), c.maxUses), c.delegationDepth))
    (fun _ => rfl)

/-- `CapabilityRequestSchema`. -/
def capabilityRequestCodec : Codec CapabilityRequest :=
  ((((((((((Members.empty.required "id" .text (by decide)).required "namespaceId" .text
    (by decide)).required "requester" addressCodec (by decide)).required "owner" addressCodec
    (by decide)).required "capabilities" (.list capabilityCodec) (by decide)).required "purpose"
    .text (by decide)).optional "constraints" capabilityConstraintsCodec (by decide)).required
    "requestedAt" .text (by decide)).optional "metadata" .json (by decide)).strict).view
    (fun (((((((((_, id), namespaceId), requester), owner), capabilities), purpose), constraints),
        requestedAt), metadata) =>
      { id, namespaceId, requester, owner, capabilities, purpose, constraints, requestedAt,
        metadata })
    (fun r => ((((((((((), r.id), r.namespaceId), r.requester), r.owner), r.capabilities),
      r.purpose), r.constraints), r.requestedAt), r.metadata))
    (fun _ => rfl)

/-- `CapabilityRequirementSchema`. -/
def capabilityRequirementCodec : Codec CapabilityRequirement :=
  (((Members.empty.required "resource" resourceRefCodec (by decide)).required "action" .text
    (by decide)).strict).view
    (fun ((_, resource), action) => { resource, action }) (fun r => (((), r.resource), r.action))
    (fun _ => rfl)

/-! ## Decisions and reach -/

/-- `AuthorizationDecisionSchema`. -/
def portableDecisionCodec : Codec PortableDecision :=
  ((((((Members.empty.required "allowed" .flag (by decide)).required "reasonCode" .text
    (by decide)).optional "matchedGrantId" .text (by decide)).optional "requiredAuthority"
    capabilityRequestCodec (by decide)).optional "metadata" .json (by decide)).strict).view
    (fun (((((_, allowed), reasonCode), matchedGrantId), requiredAuthority), metadata) =>
      { allowed, reasonCode, matchedGrantId, requiredAuthority, metadata })
    (fun d => ((((((), d.allowed), d.reasonCode), d.matchedGrantId), d.requiredAuthority),
      d.metadata))
    (fun _ => rfl)

/-- `ResourceReachSchema`. -/
def resourceReachCodec : Codec ResourceReach :=
  (((((Members.empty.required "namespace" .text (by decide)).required "path" (.list .text)
    (by decide)).required "actions" (.list .text) (by decide)).required "scope" scopeCodec
    (by decide)).strict).view
    (fun ((((_, name), path), actions), scope) => { «namespace» := name, path, actions, scope })
    (fun e => (((((), e.namespace), e.path), e.actions), e.scope)) (fun _ => rfl)

/-- A reach that was computed. -/
def computedReachCodec : Codec (Unit × List ResourceReach) :=
  ((Members.empty.literal "status" "computed" (by decide)).required "reach"
    (.list resourceReachCodec) (by decide)).strict

/-- A reach that could not be. -/
def unavailableReachCodec : Codec (Unit × JsString) :=
  ((Members.empty.literal "status" "unavailable" (by decide)).required "reasonCode" .text
    (by decide)).strict

theorem computedReachCodec_tagged : computedReachCodec.Tagged "status" "computed" :=
  (Members.Demands.required Members.demands_literal).strict

theorem unavailableReachCodec_tagged : unavailableReachCodec.Tagged "status" "unavailable" :=
  (Members.Demands.required Members.demands_literal).strict

/-- `ReachResultSchema`, told by `status`. -/
def portableReachCodec : Codec PortableReach :=
  (computedReachCodec.either unavailableReachCodec
    (computedReachCodec_tagged.refuses unavailableReachCodec_tagged (by decide))).view
    (fun
      | .inl (_, reach) => .computed reach
      | .inr (_, reasonCode) => .unavailable reasonCode)
    (fun
      | .computed reach => .inl ((), reach)
      | .unavailable reasonCode => .inr ((), reasonCode))
    (by rintro (_ | _) <;> rfl)

/-! ## Tools -/

/-- The two words of a tool's classification. -/
def toolReadWriteCodec : Codec ToolReadWrite :=
  .word [.read, .write]
    (fun
      | .read => "read"
      | .write => "write")
    (by rintro (_ | _) <;> decide)

/-- `ToolAnnotationsSchema`. -/
def toolAnnotationsCodec : Codec ToolAnnotations :=
  ((((Members.empty.optional "readOnly" .flag (by decide)).optional "destructive" .flag
    (by decide)).optional "idempotent" .flag (by decide)).strict).view
    (fun (((_, readOnly), destructive), idempotent) => { readOnly, destructive, idempotent })
    (fun a => ((((), a.readOnly), a.destructive), a.idempotent)) (fun _ => rfl)

/-- `ToolDefinitionSchema`. -/
def toolDefinitionCodec : Codec ToolDefinition :=
  (((((((((((Members.empty.required "name" .text (by decide)).required "description" .text
    (by decide)).required "namespace" .text (by decide)).required "source" .text
    (by decide)).required "readWrite" toolReadWriteCodec (by decide)).required "inputSchema" .json
    (by decide)).optional "outputSchema" .json (by decide)).required "requiredCapability"
    capabilityRequirementCodec (by decide)).optional "annotations" toolAnnotationsCodec
    (by decide)).optional "metadata" .json (by decide)).strict).view
    (fun ((((((((((_, name), description), ns), source), readWrite), inputSchema), outputSchema),
        requiredCapability), annotations), metadata) =>
      { name, description, «namespace» := ns, source, readWrite, inputSchema, outputSchema,
        requiredCapability, annotations, metadata })
    (fun d => (((((((((((), d.name), d.description), d.namespace), d.source), d.readWrite),
      d.inputSchema), d.outputSchema), d.requiredCapability), d.annotations), d.metadata))
    (fun _ => rfl)

/-- `ToolNamespaceUpdateSchema`. -/
def toolNamespaceUpdateCodec : Codec ToolNamespaceUpdate :=
  (((Members.empty.optional "enable" (.list .text) (by decide)).optional "disable" (.list .text)
    (by decide)).strict).view
    (fun ((_, enable), disable) => { enable, disable }) (fun u => (((), u.enable), u.disable))
    (fun _ => rfl)

/-- `ToolNamespaceDescriptorSchema`. -/
def toolNamespaceDescriptorCodec : Codec ToolNamespaceDescriptor :=
  (((((Members.empty.required "namespace" .text (by decide)).required "sources" (.list .text)
    (by decide)).required "toolCount" .integer (by decide)).required "enabled" .flag
    (by decide)).strict).view
    (fun ((((_, name), sources), toolCount), enabled) =>
      { «namespace» := name, sources, toolCount, enabled })
    (fun d => (((((), d.namespace), d.sources), d.toolCount), d.enabled)) (fun _ => rfl)

/-- The three counts of a namespace catalogue. -/
def toolNamespaceSummaryCodec : Codec ToolNamespaceSummary :=
  ((((Members.empty.required "total" .integer (by decide)).required "enabled" .integer
    (by decide)).required "disabled" .integer (by decide)).strict).view
    (fun (((_, total), enabled), disabled) => { total, enabled, disabled })
    (fun s => ((((), s.total), s.enabled), s.disabled)) (fun _ => rfl)

/-- `ToolNamespaceCatalogSchema`. -/
def toolNamespaceCatalogCodec : Codec ToolNamespaceCatalog :=
  (((Members.empty.required "namespaces" (.list toolNamespaceDescriptorCodec)
    (by decide)).required "summary" toolNamespaceSummaryCodec (by decide)).strict).view
    (fun ((_, namespaces), summary) => { namespaces, summary })
    (fun c => (((), c.namespaces), c.summary)) (fun _ => rfl)

/-- `ToolCallSchema`. -/
def toolCallCodec : Codec ToolCall :=
  ((((((Members.empty.required "id" .text (by decide)).required "tool" .text (by decide)).required
    "arguments" .json (by decide)).required "traceId" .text (by decide)).required "requestedAt"
    .text (by decide)).strict).view
    (fun (((((_, id), tool), arguments), traceId), requestedAt) =>
      { id, tool, arguments, traceId, requestedAt })
    (fun c => ((((((), c.id), c.tool), c.arguments), c.traceId), c.requestedAt)) (fun _ => rfl)

/-! ## Results -/

/-- `ProtocolErrorSchema`. -/
def protocolErrorCodec : Codec ProtocolError :=
  (((((Members.empty.required "code" .text (by decide)).required "message" .text
    (by decide)).optional "retryable" .flag (by decide)).optional "details" .json
    (by decide)).strict).view
    (fun ((((_, code), message), retryable), details) => { code, message, retryable, details })
    (fun e => (((((), e.code), e.message), e.retryable), e.details)) (fun _ => rfl)

section Outcome

variable {α : Type} (base : Members α) (hstatus : JsString.ofString "status" ∉ base.keys)
  (houtput : JsString.ofString "output" ∉ base.keys ++ [JsString.ofString "status"])
  (herror : JsString.ofString "error" ∉ base.keys ++ [JsString.ofString "status"])

/-- The status that carries an output. -/
def succeededCodec : Codec (α × Json) :=
  ((base.literal "status" "succeeded" hstatus).required "output" .json houtput).strict

/-- One of the two statuses that carry an error. -/
def refusedCodec (status : JsString) : Codec (α × ProtocolError) :=
  ((base.literal "status" status hstatus).required "error" protocolErrorCodec herror).strict

theorem succeededCodec_tagged :
    (succeededCodec base hstatus houtput).Tagged "status" "succeeded" :=
  (Members.Demands.required Members.demands_literal).strict

theorem refusedCodec_tagged (status : JsString) :
    (refusedCodec base hstatus herror status).Tagged "status" status :=
  (Members.Demands.required Members.demands_literal).strict

/-- The three statuses of an operation over the members all three have. -/
def outcomeCodec : Codec (α × ToolOutcome) :=
  ((succeededCodec base hstatus houtput).either
    ((refusedCodec base hstatus herror "denied").either (refusedCodec base hstatus herror "failed")
      ((refusedCodec_tagged base hstatus herror "denied").refuses
        (refusedCodec_tagged base hstatus herror "failed") (by decide)))
    (Codec.refuses_either
      ((succeededCodec_tagged base hstatus houtput).refuses
        (refusedCodec_tagged base hstatus herror "denied") (by decide))
      ((succeededCodec_tagged base hstatus houtput).refuses
        (refusedCodec_tagged base hstatus herror "failed") (by decide)))).view
    (fun
      | .inl (a, output) => (a, .succeeded output)
      | .inr (.inl (a, error)) => (a, .denied error)
      | .inr (.inr (a, error)) => (a, .failed error))
    (fun
      | (a, .succeeded output) => .inl (a, output)
      | (a, .denied error) => .inr (.inl (a, error))
      | (a, .failed error) => .inr (.inr (a, error)))
    (by rintro ⟨_, _ | _ | _⟩ <;> rfl)

end Outcome

/-- `ToolResultSchema`, told by `status`. -/
def toolResultCodec : Codec ToolResult :=
  (outcomeCodec
    ((((Members.empty.required "callId" .text (by decide)).required "tool" .text
      (by decide)).required "completedAt" .text (by decide)).optional "metadata" .json (by decide))
    (by decide) (by decide) (by decide)).view
    (fun (((((_, callId), tool), completedAt), metadata), outcome) =>
      { callId, tool, completedAt, outcome, metadata })
    (fun r => ((((((), r.callId), r.tool), r.completedAt), r.metadata), r.outcome)) (fun _ => rfl)

/-- `ResourceResultSchema`, told by `status`. -/
def resourceResultCodec : Codec ResourceResult :=
  (outcomeCodec
    (((Members.empty.required "operationId" .text (by decide)).required "completedAt" .text
      (by decide)).optional "metadata" .json (by decide))
    (by decide) (by decide) (by decide)).view
    (fun ((((_, operationId), completedAt), metadata), outcome) =>
      { operationId, completedAt, outcome, metadata })
    (fun r => (((((), r.operationId), r.completedAt), r.metadata), r.outcome)) (fun _ => rfl)

/-- A resource operation as a client sends it: the context is the host's to resolve. -/
def remoteResourceOperationCodec : Codec RemoteResourceOperation :=
  ((((((Members.empty.required "operationId" .text (by decide)).required "resource"
    resourceRefCodec (by decide)).required "action" .text (by decide)).optional "input" .json
    (by decide)).optional "metadata" .json (by decide)).strict).view
    (fun (((((_, operationId), resource), action), input), metadata) =>
      { operationId, resource, action, input, metadata })
    (fun o => ((((((), o.operationId), o.resource), o.action), o.input), o.metadata))
    (fun _ => rfl)

/-! ## Messages -/

/-- `MessageProvenanceSchema`. -/
def messageProvenanceCodec : Codec MessageProvenance :=
  ((((Members.empty.required "source" .text (by decide)).required "parentIds" (.list .text)
    (by decide)).optional "metadata" .json (by decide)).strict).view
    (fun (((_, source), parentIds), metadata) => { source, parentIds, metadata })
    (fun p => ((((), p.source), p.parentIds), p.metadata)) (fun _ => rfl)

/-- `MessageEnvelopeSchema`. -/
def messageEnvelopeCodec : Codec FullMessageEnvelope :=
  (((((((((((Members.empty.required "version" .text (by decide)).required "id" .text
    (by decide)).required "sender" addressCodec (by decide)).required "receiver" addressCodec
    (by decide)).required "purpose" .text (by decide)).required "payload" .json
    (by decide)).required "traceId" .text (by decide)).required "createdAt" .text
    (by decide)).optional "replyTo" .text (by decide)).optional "provenance"
    messageProvenanceCodec (by decide)).strict).view
    (fun ((((((((((_, version), id), sender), receiver), purpose), payload), traceId), createdAt),
        replyTo), provenance) =>
      { version, id, sender, receiver, purpose, payload, traceId, createdAt, replyTo, provenance })
    (fun m => (((((((((((), m.version), m.id), m.sender), m.receiver), m.purpose), m.payload),
      m.traceId), m.createdAt), m.replyTo), m.provenance))
    (fun _ => rfl)

/-- What every delivery result has. -/
def deliveryBase : Members (((Unit × JsString) × JsString) × Option Json) :=
  ((Members.empty.required "messageId" .text (by decide)).required "timestamp" .text
    (by decide)).optional "metadata" .json (by decide)

/-- A status that says no more. -/
def takenCodec (status : JsString) : Codec (((Unit × JsString) × JsString) × Option Json) :=
  (deliveryBase.literal "status" status (by decide)).strict

/-- A status with an error. -/
def untakenCodec (status : JsString) :
    Codec ((((Unit × JsString) × JsString) × Option Json) × ProtocolError) :=
  refusedCodec deliveryBase (by decide) (by decide) status

theorem takenCodec_tagged (status : JsString) : (takenCodec status).Tagged "status" status :=
  Members.demands_literal.strict

theorem untakenCodec_tagged (status : JsString) : (untakenCodec status).Tagged "status" status :=
  refusedCodec_tagged deliveryBase (by decide) (by decide) status

/-- `MessageDeliveryResultSchema`, told by `status`. -/
def messageDeliveryResultCodec : Codec MessageDeliveryResult :=
  ((takenCodec "accepted").either
    ((takenCodec "delivered").either
      ((untakenCodec "denied").either (untakenCodec "failed")
        ((untakenCodec_tagged "denied").refuses (untakenCodec_tagged "failed") (by decide)))
      (Codec.refuses_either
        ((takenCodec_tagged "delivered").refuses (untakenCodec_tagged "denied") (by decide))
        ((takenCodec_tagged "delivered").refuses (untakenCodec_tagged "failed") (by decide))))
    (Codec.refuses_either
      ((takenCodec_tagged "accepted").refuses (takenCodec_tagged "delivered") (by decide))
      (Codec.refuses_either
        ((takenCodec_tagged "accepted").refuses (untakenCodec_tagged "denied") (by decide))
        ((takenCodec_tagged "accepted").refuses (untakenCodec_tagged "failed") (by decide))))).view
    (fun
      | .inl (((_, messageId), timestamp), metadata) =>
        { messageId, timestamp, outcome := .accepted, metadata }
      | .inr (.inl (((_, messageId), timestamp), metadata)) =>
        { messageId, timestamp, outcome := .delivered, metadata }
      | .inr (.inr (.inl ((((_, messageId), timestamp), metadata), error))) =>
        { messageId, timestamp, outcome := .denied error, metadata }
      | .inr (.inr (.inr ((((_, messageId), timestamp), metadata), error))) =>
        { messageId, timestamp, outcome := .failed error, metadata })
    (fun r =>
      let base := ((((), r.messageId), r.timestamp), r.metadata)
      match r.outcome with
      | .accepted => .inl base
      | .delivered => .inr (.inl base)
      | .denied error => .inr (.inr (.inl (base, error)))
      | .failed error => .inr (.inr (.inr (base, error))))
    (by rintro ⟨_, _, _ | _ | _ | _, _⟩ <;> rfl)

/-! ## Turns -/

/-- `ExecutionOptionsSchema`. -/
def executionOptionsCodec : Codec RemoteExecutionOptions :=
  ((((Members.empty.optional "maxSteps" .integer (by decide)).optional "maxToolCalls" .integer
    (by decide)).optional "timeoutMs" .integer (by decide)).strict).view
    (fun (((_, maxSteps), maxToolCalls), timeoutMs) => { maxSteps, maxToolCalls, timeoutMs })
    (fun o => ((((), o.maxSteps), o.maxToolCalls), o.timeoutMs)) (fun _ => rfl)

/-- A turn as a client asks for it. -/
def remoteExecutionRequestCodec : Codec RemoteExecutionRequest :=
  ((((((((Members.empty.required "version" .text (by decide)).required "executionId" .text
    (by decide)).required "agent" agentAddressCodec (by decide)).required "message"
    messageEnvelopeCodec (by decide)).optional "state" .json (by decide)).optional "options"
    executionOptionsCodec (by decide)).optional "metadata" .json (by decide)).strict).view
    (fun (((((((_, version), executionId), (_, agentId)), message), state), options), metadata) =>
      { version, executionId, agentId, message, state, options, metadata })
    (fun r => ((((((((), r.version), r.executionId), ((), r.agentId)), r.message), r.state),
      r.options), r.metadata))
    (fun _ => rfl)

/-- `ExecutionEventSchema`. -/
def executionEventCodec : Codec FullExecutionEvent :=
  (((((((((Members.empty.required "version" .text (by decide)).required "eventId" .text
    (by decide)).required "executionId" .text (by decide)).required "traceId" .text
    (by decide)).required "sequence" .integer (by decide)).required "type" .text
    (by decide)).required "data" .json (by decide)).required "occurredAt" .text
    (by decide)).strict).view
    (fun ((((((((_, version), eventId), executionId), traceId), sequence), type), data),
        occurredAt) =>
      { version, eventId, executionId, traceId, sequence, type, data, occurredAt })
    (fun e => (((((((((), e.version), e.eventId), e.executionId), e.traceId), e.sequence), e.type),
      e.data), e.occurredAt))
    (fun _ => rfl)

/-- The escalation of a turn that stopped for a human. -/
def escalationCodec : Codec FullEscalation :=
  ((((((Members.empty.required "reason" .text (by decide)).required "reviewer" addressCodec
    (by decide)).required "requestedAt" .text (by decide)).optional "requestedAuthority"
    capabilityRequestCodec (by decide)).literal "status" "pending" (by decide)).strict).view
    (fun ((((_, reason), reviewer), requestedAt), requestedAuthority) =>
      { reason, reviewer, requestedAt, requestedAuthority })
    (fun e => (((((), e.reason), e.reviewer), e.requestedAt), e.requestedAuthority))
    (fun _ => rfl)

/-- What every execution result has. -/
def executionBase :
    Members (((((((Unit × JsString) × JsString) × JsString) × List FullExecutionEvent) × JsString) ×
      JsString) × Option Json) :=
  ((((((Members.empty.required "version" .text (by decide)).required "executionId" .text
    (by decide)).required "traceId" .text (by decide)).required "events"
    (.list executionEventCodec) (by decide)).required "startedAt" .text (by decide)).required
    "completedAt" .text (by decide)).optional "metadata" .json (by decide)

/-- A cancelled turn, its error optional. -/
def cancelledCodec := ((executionBase.literal "status" "cancelled" (by decide)).optional "error"
  protocolErrorCodec (by decide)).strict

/-- An escalated turn. -/
def escalatedCodec := ((executionBase.literal "status" "escalated" (by decide)).required
  "escalation" escalationCodec (by decide)).strict

theorem cancelledCodec_tagged : cancelledCodec.Tagged "status" "cancelled" :=
  (Members.Demands.optional Members.demands_literal).strict

theorem escalatedCodec_tagged : escalatedCodec.Tagged "status" "escalated" :=
  (Members.Demands.required Members.demands_literal).strict

/-- The three endings an operation has too. -/
def settledTurnCodec := outcomeCodec executionBase (by decide) (by decide) (by decide)

/-- What a settled turn reads is not a cancelled or an escalated one. -/
theorem settledTurn_refuses {α : Type} {c : Codec α} {word : JsString}
    (hc : c.Tagged "status" word) (hsucceeded : JsString.ofString "succeeded" ≠ word)
    (hdenied : JsString.ofString "denied" ≠ word) (hfailed : JsString.ofString "failed" ≠ word)
    (a : α) : settledTurnCodec.read (c.write a) = none := by
  have h₁ := (succeededCodec_tagged executionBase (by decide) (by decide)).refuses hc hsucceeded a
  have h₂ := (refusedCodec_tagged executionBase (by decide) (by decide) "denied").refuses hc hdenied a
  have h₃ := (refusedCodec_tagged executionBase (by decide) (by decide) "failed").refuses hc hfailed a
  show Option.map _ (Option.map _ _ <|> Option.map _ (Option.map _ _ <|> Option.map _ _)) = none
  rw [h₁, h₂, h₃]
  rfl

/-- `ExecutionResultSchema`, told by `status`. -/
def executionResultCodec : Codec FullExecutionResult :=
  (settledTurnCodec.either
    (cancelledCodec.either escalatedCodec
      (cancelledCodec_tagged.refuses escalatedCodec_tagged (by decide)))
    (Codec.refuses_either
      (settledTurn_refuses cancelledCodec_tagged (by decide) (by decide) (by decide))
      (settledTurn_refuses escalatedCodec_tagged (by decide) (by decide) (by decide)))).view
    (fun x =>
      let ((((((((_, version), executionId), traceId), events), startedAt), completedAt), metadata),
          ending) :=
        match x with
        | .inl (base, .succeeded output) => (base, FullTurnEnding.succeeded output)
        | .inl (base, .denied error) => (base, .denied error)
        | .inl (base, .failed error) => (base, .failed error)
        | .inr (.inl (base, error)) => (base, .cancelled error)
        | .inr (.inr (base, escalation)) => (base, .escalated escalation)
      { version, executionId, traceId, events, startedAt, completedAt, metadata, ending })
    (fun r =>
      let base := ((((((((), r.version), r.executionId), r.traceId), r.events), r.startedAt),
        r.completedAt), r.metadata)
      match r.ending with
      | .succeeded output => .inl (base, .succeeded output)
      | .denied error => .inl (base, .denied error)
      | .failed error => .inl (base, .failed error)
      | .cancelled error => .inr (.inl (base, error))
      | .escalated escalation => .inr (.inr (base, escalation)))
    (by rintro ⟨_, _, _, _, _, _, _, _ | _ | _ | _ | _⟩ <;> rfl)

/-! ## Errors -/

/-- The body of a refused request. -/
def apiErrorCodec : Codec SharedOSApiErrorBody :=
  (((Members.empty.required "error"
    ((((Members.empty.required "code" .text (by decide)).required "message" .text
      (by decide)).optional "requestId" .text (by decide)).strict) (by decide)).strict)).view
    (fun (_, (((_, code), message), requestId)) => { code, message, requestId })
    (fun e => ((), ((((), e.code), e.message), e.requestId))) (fun _ => rfl)

end SharedOS.Contracts
