/-
SharedOS.Contracts.Access — the context of a decision.

An access context says who acts (`actor`), under whose authority, on whose resources (`owner`), for
what purpose and at which instant. A host resolves it for each operation, and every check of an
operation is made against it: a grant is for its actor and from its authority, a resource that names
no owner is the owner's, a tool is visible where its namespace is enabled.

It carries no grants. What an actor may do is loaded beside it and held apart (`Core.Authority`), so a
context can be cloned, logged and handed to a port without handing over authority.

The schema trims every text, keeps the rest, and refuses a context that enables one namespace twice.
-/
import SharedOS.Contracts.Capability

namespace SharedOS.Contracts

open SharedOS.Foundation

/-- The identity, purpose, time and tool-namespace inputs to a permission decision. It carries no
authority. -/
structure AccessContext where
  namespaceId : JsString
  actor : Address
  authority : Address
  owner : Address
  purpose : JsString
  traceId : JsString
  executionId : Option JsString
  enabledToolNamespaces : List JsString
  now : JsString
  deriving DecidableEq

/-- `EnabledToolNamespacesSchema`: the parsed names are compared. -/
def enabledToolNamespacesSchema (names : List JsString) : Option (List JsString) := do
  let parsed ← arraySchema identifierSchema 0 256 names
  if parsed.Nodup then some parsed else none

/-- `AccessContextSchema`. -/
def accessContextSchema [HostPlatform] (c : AccessContext) : Option AccessContext := do
  let namespaceId ← identifierSchema c.namespaceId
  let actor ← c.actor.schema
  let authority ← c.authority.schema
  let owner ← c.owner.schema
  let purpose ← trimmedString 512 c.purpose
  let traceId ← identifierSchema c.traceId
  let executionId ← optionalSchema identifierSchema c.executionId
  let enabledToolNamespaces ← enabledToolNamespacesSchema c.enabledToolNamespaces
  let now ← timestampSchema c.now
  some { namespaceId, actor, authority, owner, purpose, traceId, executionId,
         enabledToolNamespaces, now }

/-- The parties of a context that is its own parse are their own parse. -/
theorem accessContext_parties [HostPlatform] {c : AccessContext}
    (h : accessContextSchema c = some c) :
    identifierSchema c.namespaceId = some c.namespaceId ∧ c.actor.schema = some c.actor := by
  unfold accessContextSchema at h
  simp only [Option.bind_eq_bind, Option.bind_eq_some_iff] at h
  obtain ⟨namespaceId, hns, actor, hactor, _, _, _, _, _, _, _, _, _, _, _, _, _, _, heq⟩ := h
  have hc := Option.some.inj heq
  rw [← hc]
  dsimp only
  have hns' : namespaceId = c.namespaceId := congrArg AccessContext.namespaceId hc
  have hactor' : actor = c.actor := congrArg AccessContext.actor hc
  rw [← hns'] at hns
  rw [← hactor'] at hactor
  exact ⟨hns, hactor⟩

end SharedOS.Contracts
