/-
SharedOS.Core.CapabilityRequest — minting the description of missing authority.

Everything in a request but the ask itself comes from the trusted context, and the identifier is a
digest of the ask. A payload the schema refuses mints nothing.
-/
import SharedOS.Core.Internal

namespace SharedOS.Core

open SharedOS.Foundation SharedOS.Contracts

variable [HostPlatform]

/-- `hashJson`. -/
def hashJson (value : Json) : JsString := HostPlatform.sha256Hex (canonicalJson value)

/-- What a caller may say about the authority it asks for. -/
structure CapabilityRequestPayload where
  capabilities : List Capability
  purpose : JsString
  constraints : Option CapabilityConstraints
  metadata : Option Json

/-- `ASK_SCHEMA`. -/
def askSchema (payload : CapabilityRequestPayload) : Option CapabilityRequestPayload := do
  let capabilities ← arraySchema capabilitySchema 1 64 payload.capabilities
  let purpose ← purposeSchema payload.purpose
  let constraints ← optionalSchema capabilityConstraintsSchema payload.constraints
  let metadata ← optionalSchema jsonObjectSchema payload.metadata
  some { capabilities, purpose, constraints, metadata }

/-- What the identifier of a request is a digest of. -/
def askIdentity (context : AccessContext) (asked : CapabilityRequestPayload) : Json :=
  .obj (([("namespaceId", .str context.namespaceId), ("requester", context.actor.toJson),
      ("owner", context.owner.toJson),
      ("capabilities", .arr (asked.capabilities.map Capability.toJson)),
      ("purpose", .str asked.purpose)] : List (JsString × Json)) ++
    optionalEntry "constraints" (asked.constraints.map CapabilityConstraints.toJson))

/-- Mint a request for authority from the trusted context and what was asked. -/
def mintCapabilityRequest (context : AccessContext) (payload : CapabilityRequestPayload) :
    Option CapabilityRequest := do
  let asked ← askSchema payload
  capabilityRequestSchema
    { id := JsString.ofString "capreq-" ++ hashJson (askIdentity context asked)
      namespaceId := context.namespaceId
      requester := context.actor
      owner := context.owner
      capabilities := asked.capabilities
      purpose := asked.purpose
      constraints := asked.constraints
      requestedAt := context.now
      metadata := asked.metadata }

/-- The authority that would have satisfied a request nothing matched: one exact capability. -/
def describeRequiredAuthority (context : AccessContext) (request : CapabilityRequirement) :
    Option CapabilityRequest :=
  mintCapabilityRequest context
    { capabilities := [{ resource := request.resource, actions := [request.action], scope := .exact }]
      purpose := context.purpose
      constraints := none
      metadata := none }

end SharedOS.Core
