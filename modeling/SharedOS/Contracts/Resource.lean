/-
SharedOS.Contracts.Resource — one permission-controlled operation on a resource, and its result.

An operation names its resource and its action itself, so unlike a tool call it needs no resolver: what
is authorized is what was asked. A provider answers with a result that names the operation, in one of
the three statuses a tool result has.

The context is part of the operation inside the host. What a client sends has none
(`Contracts.Http.RemoteResourceOperation`).
-/
import SharedOS.Contracts.Tool

namespace SharedOS.Contracts

open SharedOS.Foundation

/-- An operation on a resource, in its context. -/
structure ResourceOperation where
  operationId : JsString
  context : AccessContext
  resource : ResourceRef
  action : JsString
  input : Option Json
  metadata : Option Json := none

/-- The statuses of a resource result are those of a tool result. -/
structure ResourceResult where
  operationId : JsString
  completedAt : JsString
  outcome : ToolOutcome
  metadata : Option Json

/-- `ResourceResultSchema`. -/
def resourceResultSchema [HostPlatform] (r : ResourceResult) : Option ResourceResult := do
  let operationId ← identifierSchema r.operationId
  let completedAt ← timestampSchema r.completedAt
  let outcome ← toolOutcomeSchema r.outcome
  let metadata ← optionalSchema jsonObjectSchema r.metadata
  some { operationId, completedAt, outcome, metadata }

end SharedOS.Contracts
