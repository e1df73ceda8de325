/-
SharedOS.Contracts.Audit — the record of a decision or of an operation.

What SharedOS states about every event of a kind is a field: its type, how it came out, the operation
and the tool it is about, the resource and the action, the grant that carried it, the hash of the
authority it was decided on. `metadata` holds the rest, and what a host's ceiling has to say of a
refusal goes there too.

A record before an effect and a record after it are the same data. Which rule a write follows, refuse
on failure or report and go on, is the kernel's (`Kernel.Recording`), and depends on where in the
operation it is written.

The input is what the kernel fills in, the event what the sink gets: with the context's scope, an
identifier of its own and the instant.
-/
import SharedOS.Contracts.Access

namespace SharedOS.Contracts

open SharedOS.Foundation

/-- What a record is about. -/
inductive AuditEventType where
  | authorityResolved
  | authorizationChecked
  | escalationRequested
  | escalationAutoDecided
  | resourceInvoked
  | toolCatalogListed
  | toolNamespaceCatalogListed
  | toolNamespaceSelectionUpdated
  | toolInvoked
  | messageSent
  | turnEnded
  deriving DecidableEq

/-- `interrupted` is written for an operation whose port was entered and stopped before it
answered, so any part of its effect may have committed. -/
inductive AuditOutcome where
  | allowed
  | denied
  | succeeded
  | failed
  | escalated
  | interrupted
  deriving DecidableEq

/-- Which boundary performed or refused what an event records. -/
inductive AuditSource where
  | kernel
  | envelope
  deriving DecidableEq

/-- What an emitter states about one event. -/
structure AuditEventInput where
  type : AuditEventType
  outcome : AuditOutcome
  resource : Option ResourceRef := none
  action : Option JsString := none
  grantId : Option JsString := none
  authorityHash : Option JsString := none
  operationId : Option JsString := none
  tool : Option JsString := none
  messageId : Option JsString := none
  receiver : Option Address := none
  reason : Option JsString := none
  source : Option AuditSource := none
  cause : Option JsString := none
  failClosed : Option Bool := none
  consumed : Option Bool := none
  metadata : Option Json := none

/-- One audit record. -/
structure AuditEvent extends AuditEventInput where
  id : JsString
  at_ : JsString
  traceId : JsString
  namespaceId : JsString
  actor : Address
  authority : Address
  owner : Address
  purpose : JsString

end SharedOS.Contracts
