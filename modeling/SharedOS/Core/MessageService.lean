/-
SharedOS.Core.MessageService — what a grant over an address names.

An address is granted by its path: its kind and its identifier, as two segments. Sending to an
address and running its agent are each one exact resource under that path.
-/
import SharedOS.Contracts.Access

namespace SharedOS.Core

open SharedOS.Foundation SharedOS.Contracts

/-- `MESSAGING_NAMESPACE`. -/
def messagingNamespace : JsString := "sharedos.messaging"

/-- `MESSAGE_SEND_ACTION`. -/
def messageSendAction : JsString := "send"

/-- `EXECUTION_NAMESPACE`. -/
def executionNamespace : JsString := "sharedos.execution"

/-- `AGENT_INVOKE_ACTION`. -/
def agentInvokeAction : JsString := "invoke"

/-- The grant path of an address. -/
def addressPath : Address → List JsString
  | .human userId => ["human", userId]
  | .agent agentId => ["agent", agentId]
  | .group conversationId => ["group", conversationId]
  | .service serviceId => ["service", serviceId]

/-- `messageSendCapability`. -/
def messageSendCapability (receiver owner : Address) : Capability where
  resource :=
    { «namespace» := messagingNamespace, path := addressPath receiver, owner := some owner }
  actions := [messageSendAction]
  scope := .exact

/-- `agentExecutionCapability`. -/
def agentExecutionCapability (agent owner : Address) : Capability where
  resource :=
    { «namespace» := executionNamespace, path := addressPath agent, owner := some owner }
  actions := [agentInvokeAction]
  scope := .exact

/-- The requirement `admitTurn` is decided on. -/
def admitTurnRequest (context : AccessContext) (agent : Address) : CapabilityRequirement where
  resource :=
    { «namespace» := executionNamespace, path := addressPath agent, owner := some context.owner }
  action := agentInvokeAction

/-- `RecipientScopedMessageCapabilityResolver.resolve`. -/
def messageSendRequirement (context : AccessContext) (receiver : Address) :
    CapabilityRequirement where
  resource :=
    { «namespace» := messagingNamespace
      path := addressPath receiver
      owner := some context.owner }
  action := messageSendAction

theorem addressPath_eq (a : Address) : addressPath a = [a.kind, a.identifier] := by
  cases a <;> rfl

/-- **A grant path names one address.** -/
theorem addressPath_injective : Function.Injective addressPath := by
  intro a b h
  rw [addressPath_eq, addressPath_eq, List.cons.injEq, List.cons.injEq] at h
  exact Address.eq_of_kind_identifier h.1 h.2.1

/-! ## Segments -/

/-- A string of a fixed vocabulary is a segment as it stands. -/
theorem pathSegmentSchema_kind (a : Address) : pathSegmentSchema a.kind = some a.kind := by
  cases a <;> dsimp only [Address.kind] <;> decide +kernel

/-- The identifier of a valid address is short enough, so only its units can refuse it. -/
theorem pathSegmentSchema_identifier {a : Address} (h : a.schema.isSome) :
    pathSegmentSchema a.identifier =
      if isPathSegment (trim a.identifier) then some (trim a.identifier) else none := by
  have hidentifier : (identifierSchema a.identifier).isSome := by
    cases a <;> simpa [Address.schema, Address.identifier] using h
  obtain ⟨t, ht⟩ := Option.isSome_iff_exists.mp hidentifier
  have htrim := eq_trim_of_trimmedString ht
  unfold pathSegmentSchema
  rw [show trimmedString 256 a.identifier = some t from ht, htrim]
  rfl

/-- **When every segment of an address is one.** -/
theorem addressPath_segments_iff {a : Address} (h : a.schema.isSome) :
    (∀ segment ∈ addressPath a, (pathSegmentSchema segment).isSome) ↔
      isPathSegment (trim a.identifier) = true := by
  rw [addressPath_eq, List.forall_mem_cons, List.forall_mem_singleton, pathSegmentSchema_kind,
    pathSegmentSchema_identifier h]
  simp

/-! ## Capabilities over a path -/

/-- A capability for one action on one resource is accepted with its namespace, path and owner. -/
theorem capabilitySchema_isSome_iff {name : JsString} {path : List JsString} {owner : Address}
    {action : JsString} {scope : Scope} (hname : (identifierSchema name).isSome)
    (howner : owner.schema.isSome) (haction : (actionSchema action).isSome)
    (hlength : path.length ≤ 64) :
    (capabilitySchema
        { resource := { «namespace» := name, path, owner := some owner }
          actions := [action]
          scope }).isSome ↔
      ∀ segment ∈ path, (pathSegmentSchema segment).isSome := by
  have hactions : (arraySchema actionSchema 1 64 [action]).isSome :=
    arraySchema_isSome_iff.mpr ⟨by simp, by simpa using haction⟩
  have hpath : (arraySchema pathSegmentSchema 0 64 path).isSome ↔
      ∀ segment ∈ path, (pathSegmentSchema segment).isSome := by
    rw [arraySchema_isSome_iff]
    simp [hlength]
  rw [← hpath]
  obtain ⟨name', hname⟩ := Option.isSome_iff_exists.mp hname
  obtain ⟨owner', howner⟩ := Option.isSome_iff_exists.mp howner
  obtain ⟨actions', hactions⟩ := Option.isSome_iff_exists.mp hactions
  unfold capabilitySchema resourceRefSchema
  dsimp only
  rw [hname, hactions, show optionalSchema Address.schema (some owner) = some (some owner') by
    simp [optionalSchema, howner]]
  cases arraySchema pathSegmentSchema 0 64 path <;> simp

end SharedOS.Core
