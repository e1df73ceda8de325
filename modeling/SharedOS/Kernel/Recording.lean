/-
SharedOS.Kernel.Recording — what the kernel writes to the audit sink, and under which rule.

Two rules. A record that comes before an effect refuses the operation when it fails
(`recordDecision`). A record that comes after an effect never changes it (`recordOutcome`): the
failure is handed to the host's own hook, and so is a sink that does not answer in time. These two
are the only writers.
-/
import SharedOS.Contracts.Tool
import SharedOS.Kernel.Ports

namespace SharedOS.Kernel

open SharedOS.Foundation SharedOS.Contracts SharedOS.Core

/-! ## Metadata -/

/-- `{ ...left, ...right }` on the entries of two objects. -/
def spreadEntries (left right : List (JsString × Json)) : List (JsString × Json) :=
  left.map (fun entry => (entry.1, (right.lookup entry.1).getD entry.2)) ++
    right.filter fun entry => (left.lookup entry.1).isNone

/-- A key reads as it does on the right, and where the right lacks it as on the left. -/
theorem lookup_spreadEntries (left right : List (JsString × Json)) (key : JsString) :
    (spreadEntries left right).lookup key = (right.lookup key).or (left.lookup key) := by
  have hkept : (left.map fun entry => (entry.1, (right.lookup entry.1).getD entry.2)).lookup key =
      (left.lookup key).map fun value => (right.lookup key).getD value := by
    induction left with
    | nil => rfl
    | cons entry left ih =>
        obtain ⟨name, value⟩ := entry
        by_cases hkey : key = name
        · subst hkey
          simp
        · have hne : (key == name) = false := beq_false_of_ne hkey
          simpa [List.lookup_cons, hne] using ih
  have hadded : left.lookup key = none →
      (right.filter fun entry => (left.lookup entry.1).isNone).lookup key = right.lookup key := by
    clear hkept
    intro habsent
    induction right with
    | nil => rfl
    | cons entry right ih =>
        obtain ⟨name, value⟩ := entry
        by_cases hkey : key = name
        · subst hkey
          simp [habsent]
        · have hne : (key == name) = false := beq_false_of_ne hkey
          rw [List.filter_cons]
          split
          · simpa [List.lookup_cons, hne] using ih
          · simpa [List.lookup_cons, hne] using ih
  unfold spreadEntries
  rw [List.lookup_append, hkept]
  cases hleft : left.lookup key with
  | none =>
      rw [Option.map_none, Option.none_or, hadded hleft, Option.or_none]
  | some value =>
      rw [Option.map_some, Option.some_or]
      cases right.lookup key <;> rfl

/-- The entries of an object that may be absent. -/
def objectEntries : Option Json → List (JsString × Json)
  | some (.obj entries) => entries
  | _ => []

/-- `metadata`, present only when there is something in it. -/
def metadataOf : List (JsString × Json) → Option Json
  | [] => none
  | entries => some (.obj entries)

/-- The word of a rejection in a record. -/
def rejectionText : GrantRejectionReason → JsString
  | .issuer => "issuer"
  | .subject => "subject"
  | .namespace => "namespace"
  | .window => "window"
  | .purpose => "purpose"
  | .verifier => "verifier"
  | .capability => "capability"
  | .delegation => "delegation"
  | .exhausted => "exhausted"

/-- The word of a missing dependency in a record. -/
def missingDependencyText : MissingDependency → JsString
  | .usageStore => "usageStore"
  | .delegationResolver => "delegationResolver"

/-- One rejected grant, as a record names it. -/
def rejectedGrantJson (grantId reason : JsString) : Json :=
  .obj [("grantId", .str grantId), ("reason", .str reason)]

/-- The rejected grants of a decision, where there are any. -/
def rejectedGrantsEntry (rejections : List GrantRejection) : Option Json :=
  if rejections.isEmpty then none
  else
    some (.arr (rejections.map fun rejection =>
      rejectedGrantJson rejection.grantId (rejectionText rejection.reason)))

/-- The host-facing account of a denial, flattened onto the record. -/
def explanationMetadata (explanation : AuthorizationExplanation) : List (JsString × Json) :=
  ([("grantsResolved", jsonInt explanation.grantsResolved)] : List (JsString × Json)) ++
    optionalEntry "rejectedGrants" (rejectedGrantsEntry explanation.rejections) ++
    optionalEntry "missingDependency"
      (explanation.missingDependency.map fun missing => .str (missingDependencyText missing))

/-- The code of an operation whose record could not be written. -/
def auditUnavailableCode : JsString := "audit_unavailable"

/-- The code of an operation its caller aborted. -/
def operationAborted : JsString := "operation_aborted"

/-- `INFRASTRUCTURE_DENIAL_REASONS`: a fact could not be established, and nothing was decided on
one. -/
def infrastructureDenialReasons : List AuthorizationReasonCode :=
  [.authorityUnavailable, .delegationChainUnverified, .usageStoreUnavailable,
    .hostPolicyUnavailable]

/-- `failClosed`, present only on a code that is SharedOS failing to establish a fact. -/
def failClosedFor : Option JsString → Option Bool
  | none => none
  | some code =>
    if code ∈ infrastructureDenialReasons.map AuthorizationReasonCode.text ∨
        code = auditUnavailableCode then some true
    else none

/-! ## The two writers -/

/-- `#auditEvent`: every record is stamped from the context, under an identity of its own. -/
def stampEvent (context : AccessContext) (input : AuditEventInput) : KernelM AuditEvent := do
  let id ← ask .createAuditId
  pure
    { toAuditEventInput := input
      id
      at_ := context.now
      traceId := context.traceId
      namespaceId := context.namespaceId
      actor := context.actor
      authority := context.authority
      owner := context.owner
      purpose := context.purpose }

/-- `#recordDecision`. -/
def recordDecision (event : AuditEvent) : KernelM Unit := do
  match ← ask (.record event) with
  | .fulfilled _ => pure ()
  | .rejected => raise (.auditUnavailable .none)

/-- `#recordOutcome`. A sink past its limit counts as one that threw. -/
def recordOutcome (kernel : SharedOSKernel) (event : AuditEvent) : KernelM Unit := do
  match ← ask (.record event) with
  | .fulfilled _ => pure ()
  | .rejected => if kernel.reportsAuditErrors then ask (.onAuditError event)

/-- What a call site states about a throw it contained, besides its code. -/
structure ProviderErrorOperation where
  kind : ProviderErrorKind
  operationId : Option JsString := none
  tool : Option JsString := none
  resource : Option ResourceRef := none
  action : Option JsString := none

/-- `#reportProviderError`. -/
def reportProviderError (kernel : SharedOSKernel) (context : AccessContext) (reasonCode : JsString)
    (operation : ProviderErrorOperation) : KernelM Unit :=
  if kernel.reportsProviderErrors then
    ask (.onProviderError
      { kind := operation.kind
        reasonCode := reasonCode
        traceId := context.traceId
        namespaceId := context.namespaceId
        operationId := operation.operationId
        tool := operation.tool
        resource := operation.resource
        action := operation.action })
  else pure ()

/-! ## The records -/

/-- The `authorization.checked` record of one decision. -/
def authorizationChecked (request : CapabilityRequirement) (decision : AuthorizationDecision)
    (consume : Bool) (authorityHash operationId : Option JsString)
    (explanation : Option AuthorizationExplanation) : AuditEventInput where
  type := .authorizationChecked
  outcome := if decision.allowed then .allowed else .denied
  resource := some request.resource
  action := some request.action
  authorityHash := authorityHash
  operationId := operationId
  grantId := decision.matchedGrantId
  reason := if decision.allowed then none else some decision.reasonCode.text
  consumed := some consume
  failClosed := if decision.allowed then none else failClosedFor (some decision.reasonCode.text)
  metadata := metadataOf (spreadEntries (objectEntries decision.metadata)
    ((explanation.map explanationMetadata).getD []))

/-- `#recordAuthorizationDecision`. -/
def recordAuthorizationDecision (context : AccessContext) (request : CapabilityRequirement)
    (decision : AuthorizationDecision) (consume : Bool)
    (authorityHash operationId : Option JsString)
    (explanation : Option AuthorizationExplanation) : KernelM Unit := do
  let event ← stampEvent context
    (authorizationChecked request decision consume authorityHash operationId explanation)
  recordDecision event

/-- What a `tool.invoked` record carries beyond the call and its result. -/
structure ToolResultAuditDetail where
  grantId : Option JsString := none
  requirement : Option CapabilityRequirement := none
  cause : Option JsString := none

/-- The one `tool.invoked` record, whichever boundary answered the call. -/
def toolInvoked (source : AuditSource) (callId tool : JsString) (outcome : AuditOutcome)
    (reasonCode : Option JsString) (detail : ToolResultAuditDetail)
    (catalogueServed : Option JsString) : AuditEventInput where
  type := .toolInvoked
  outcome := outcome
  operationId := some callId
  tool := some tool
  resource := detail.requirement.map CapabilityRequirement.resource
  action := detail.requirement.map CapabilityRequirement.action
  grantId := detail.grantId
  source := some source
  reason := reasonCode
  cause := detail.cause
  failClosed := failClosedFor reasonCode
  metadata := metadataOf (optionalEntry "catalogHash" (catalogueServed.map .str))

/-- The outcome a status is recorded under. -/
def statusOutcome : ToolStatus → AuditOutcome
  | .succeeded => .succeeded
  | .denied => .denied
  | .failed => .failed

section

variable [HostPlatform]

/-- `#recordToolInvoked`. -/
def recordToolInvoked (kernel : SharedOSKernel) (context : AccessContext) (source : AuditSource)
    (callId tool : JsString) (outcome : AuditOutcome) (reasonCode : Option JsString)
    (detail : ToolResultAuditDetail) : KernelM Unit := do
  let catalogueServed ← ask (.leasedCatalogHash (turnAuthorityKey context))
  let event ← stampEvent context
    (toolInvoked source callId tool outcome reasonCode detail catalogueServed)
  recordOutcome kernel event

/-- `#recordToolResult`. -/
def recordToolResult (kernel : SharedOSKernel) (context : AccessContext) (call : ToolCall)
    (result : ToolResult) (detail : ToolResultAuditDetail) : KernelM Unit :=
  recordToolInvoked kernel context .kernel call.id call.tool (statusOutcome result.status)
    result.errorCode detail

end

end SharedOS.Kernel
