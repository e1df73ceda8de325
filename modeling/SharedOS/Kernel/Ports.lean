/-
SharedOS.Kernel.Ports — everything a kernel operation asks of its surroundings.

A kernel operation is a program over these: the caller's signal, the lease table, the trusted
sources, the authorizer's own ports, the audit sink, the tool providers, the three functions of
a handler, and the objects a handler shares with the call it serves. Each answer is whatever it may
be at that moment, so a statement about every run of an operation covers every sink, handler, parser,
resolver and signal, and whatever other operations do to the lease table meanwhile.
-/
import SharedOS.Contracts.Audit
import SharedOS.Core.Authorization
import SharedOS.Kernel.ToolRegistry

namespace SharedOS.Kernel

open SharedOS.Foundation SharedOS.Contracts SharedOS.Core

/-- What a policy source's load came to. -/
inductive PolicyAnswer where
  | threw
  /-- A value that is not `{ policy, version }` with a non-empty version. -/
  | notLoaded
  | loaded (policy : HostPolicy) (version : JsString)

/-- What the promise of a port that does an operation's work came to. A candidate that has not the
shape of a result is absent. -/
inductive PortAnswer (α : Type) where
  | returned (candidate : Option α)
  | threw
  /-- It called back into the kernel for a decision that could not be recorded. -/
  | threwAuditUnavailable

/-- After what a tool call reads again the objects it shares with its tool's code. -/
inductive Await where
  /-- The requirement was resolved. -/
  | resolved
  /-- The authorizer decided. -/
  | decided
  /-- The decision was recorded. -/
  | recorded
  /-- The handler settled. -/
  | answered
  /-- The kernel's own reading of the handler was awaited. -/
  | settled
  deriving DecidableEq

/-- What the kernel asks of what surrounds it: one constructor for each port, and one for each read
of a lease. -/
inductive KernelOp where
  | signalAborted
  | leasedAuthority (key : JsString)
  /-- Wait, against the caller's own signal, for the registry a lease holds. -/
  | leasedRegistry (key : JsString)
  | leasedCatalogHash (key : JsString)
  | loadGrants (context : AccessContext)
  | loadPolicy (context : AccessContext)
  | verifyGrant (grant : CapabilityGrant) (context : AccessContext)
  | resolveParent (namespaceId grantId : JsString)
  | getUsage (namespaceId grantId : JsString)
  | tryConsume (namespaceId grantId : JsString) (maximumUses : ℤ)
  | narrow (decision : AuthorizationDecision) (request : CapabilityRequirement)
      (context : AccessContext) (policy : Option HostPolicy)
  | createAuditId
  | record (event : AuditEvent)
  | onAuditError (event : AuditEvent)
  | onProviderError (report : ProviderErrorContext)
  | listTools (provider : JsString) (context : AccessContext)
  | parseArguments (handler : ToolHandler) (arguments : Json)
  | resolveRequirement (handler : ToolHandler) (context : AccessContext) (call : ToolCall)
  | invokeHandler (handler : ToolHandler) (context : AccessContext) (call : ToolCall)
  | dispatchCause (call : ToolCall)
  /-- Read a context that a tool's code was handed, and may have written to since it last read as
  `was`. -/
  | heldContext (since : Await) (was : AccessContext)
  /-- Read a requirement that a tool's code answered with and holds still. -/
  | heldRequirement (since : Await) (was : CapabilityRequirement)

/-- The answer of each port. A throw is an answer too. -/
abbrev KernelOp.Answer : KernelOp → Type
  | .signalAborted => Bool
  | .leasedAuthority _ => Option AuthorityResolution
  | .leasedRegistry _ => Option (Except CatalogError ToolRegistry)
  | .leasedCatalogHash _ => Option JsString
  | .loadGrants _ => Settled LoadedGrants
  | .loadPolicy _ => PolicyAnswer
  | .verifyGrant .. => Settled Bool
  | .resolveParent .. => Settled (Option CapabilityGrant)
  | .getUsage .. => Settled ℤ
  | .tryConsume .. => Settled Bool
  | .narrow .. => CeilingAnswer
  | .createAuditId => JsString
  | .record _ => Settled Unit
  | .onAuditError _ => Unit
  | .onProviderError _ => Unit
  | .listTools .. => ListToolsAnswer
  | .parseArguments .. => Settled (Option Json)
  | .resolveRequirement .. => Settled (Option CapabilityRequirement)
  | .invokeHandler .. => PortAnswer ToolResult
  | .dispatchCause _ => Option JsString
  | .heldContext .. => AccessContext
  | .heldRequirement .. => CapabilityRequirement

/-- What an `AuditUnavailableError` says of the operation it refuses. -/
inductive AuditEffect where
  | none
  | unknown
  deriving DecidableEq

/-- How an operation rejects. -/
inductive KernelError where
  /-- The caller's own reason. -/
  | aborted
  | auditUnavailable (effect : AuditEffect)
  deriving DecidableEq

/-- The kernel's programs. -/
abbrev KernelM := Program KernelOp KernelOp.Answer KernelError

/-- One question of the kernel with its answer. -/
abbrev KernelEvent := Event KernelOp.Answer

/-- What an operation has asked, with the answers. -/
abbrev KernelTrace := List KernelEvent

/-- How a kernel is put together. -/
structure SharedOSKernel where
  catalog : CatalogSources
  hasPolicySource : Bool
  hasUsageStore : Bool
  hasGrantVerifier : Bool
  hasDelegationResolver : Bool
  maxDelegationChainLength : Option ℕ
  hasHostCeiling : Bool
  authorizerReportsErrors : Bool
  reportsAuditErrors : Bool
  reportsProviderErrors : Bool

/-- A component where it is installed. -/
def installed {α : Type} (present : Bool) (component : α) : Option α :=
  if present then some component else none

/-- One question, answered. -/
def ask (o : KernelOp) : KernelM o.Answer := Program.perform o

/-- The operation rejects. -/
def raise {α : Type} (e : KernelError) : KernelM α := Program.throw e

/-- `signal?.throwIfAborted()`. A caller without a signal never aborts. -/
def throwIfAborted : KernelM Unit := do
  if ← ask .signalAborted then raise .aborted

/-- The authorizer, its ports asked through the kernel. -/
def SharedOSKernel.authorizer (kernel : SharedOSKernel) : CapabilityAuthorizerOptions KernelM where
  usageStore := installed kernel.hasUsageStore
    { getUsage := fun namespaceId grantId => ask (.getUsage namespaceId grantId)
      tryConsume := fun namespaceId grantId maximumUses =>
        ask (.tryConsume namespaceId grantId maximumUses) }
  grantVerifier := installed kernel.hasGrantVerifier
    { verify := fun grant context => ask (.verifyGrant grant context) }
  delegationResolver := installed kernel.hasDelegationResolver
    { resolve := fun namespaceId grantId => ask (.resolveParent namespaceId grantId) }
  maxDelegationChainLength := kernel.maxDelegationChainLength
  hostCeiling := installed kernel.hasHostCeiling
    { narrow := fun decision request context policy =>
        ask (.narrow decision request context policy) }
  onProviderError := installed kernel.authorizerReportsErrors
    fun report => ask (.onProviderError report)

/-- The ports a derivation of the catalogue needs, asked of the surroundings. -/
def catalogPortsOf : CatalogPorts KernelM where
  aborted := ask .signalAborted
  listTools provider context := ask (.listTools provider context)

end SharedOS.Kernel
