/-
SharedOS.Kernel.InvokeTool — one mediated tool call.

`invokeTool` is a chain of gates, each with its own exit: the trace, the authority, the catalogue,
the namespace, discovery, the arguments, the requirement, the context's world, the tool's own
ceiling, the decision. Past the last gate the handler is entered, and what it answers is accepted,
refused as malformed, contained, or recorded as interrupted. Every exit writes its own
`tool.invoked` record. The gates are written as one definition each, in the order of the source.

Here the tool's code is handed values. The source hands it the call's own context, and reads the
requirement its resolver answered with again later: `Kernel.LiveCall` is the call with those objects
shared, made of the same gates (`parseCallThen` and the others take what comes after as an argument),
and is this one where nothing is written into them.
-/
import SharedOS.Kernel.Recording

namespace SharedOS.Kernel

open SharedOS.Foundation SharedOS.Contracts SharedOS.Core

variable [HostPlatform]

/-! ## Authority -/

/-- A policy source that could not be read. It names no operation. -/
def reportPolicyOutage (kernel : SharedOSKernel) (context : AccessContext) : KernelM Unit :=
  reportProviderError kernel context "host_policy_unavailable" { kind := .policy }

/-- `#loadHostPolicy`. -/
def loadHostPolicy (kernel : SharedOSKernel) (context : AccessContext) :
    KernelM (Option PolicyResolution) :=
  if !kernel.hasPolicySource then pure none
  else do
    match ← ask (.loadPolicy context) with
    | .threw =>
      -- a cancelled load is a cancellation, not an outage
      throwIfAborted
      reportPolicyOutage kernel context
      pure (some .unavailable)
    | .notLoaded =>
      reportPolicyOutage kernel context
      pure (some .unavailable)
    | .loaded policy version =>
      if version.length = 0 then
        reportPolicyOutage kernel context
        pure (some .unavailable)
      else pure (some (.loaded policy version))

/-- `TrustedAuthorityResolver.resolve`. -/
def resolveGrants (context : AccessContext) : KernelM AuthorityResolution := do
  match ← ask (.loadGrants context) with
  | .rejected =>
    throwIfAborted
    pure (resolveAuthority context .rejected)
  | loaded => pure (resolveAuthority context loaded)

/-- The word of a policy in the record of a load. -/
def hostPolicyState : Option PolicyResolution → JsString
  | none => "absent"
  | some (.loaded ..) => "loaded"
  | some .unavailable => "unavailable"

/-- Whether a host ceiling is installed, as the record of a load says it. -/
def hostCeilingState (kernel : SharedOSKernel) : JsString :=
  if kernel.hasHostCeiling then "installed" else "absent"

/-- The `authority.resolved` record of one load. -/
def authorityResolved (kernel : SharedOSKernel) (resolution : AuthorityResolution)
    (hostPolicy : Option PolicyResolution) : AuditEventInput :=
  match resolution with
  | .resolved authority =>
    { type := .authorityResolved
      outcome := .succeeded
      authorityHash := some authority.snapshot.hash
      metadata := some (.obj
        [("grantIds", jsonStrings authority.snapshot.grantIds),
          ("grantCount", jsonInt authority.snapshot.grantCount),
          ("hostCeiling", .str (hostCeilingState kernel)),
          ("hostPolicy", .str (hostPolicyState hostPolicy))]) }
  | .unavailable code detail =>
    { type := .authorityResolved
      outcome := .failed
      reason := some AuthorizationReasonCode.authorityUnavailable.text
      failClosed := some true
      metadata := some (.obj
        (([("authority", .str code.text), ("hostCeiling", .str (hostCeilingState kernel)),
            ("hostPolicy", .str (hostPolicyState hostPolicy))] : List (JsString × Json)) ++
          optionalEntry "rejectedGrants" (detail.map fun detail =>
            .arr [rejectedGrantJson detail.grantId detail.reason.text]))) }

/-- The loaded policy rides on a resolved authority. -/
def withHostPolicy (resolution : AuthorityResolution) (hostPolicy : Option PolicyResolution) :
    AuthorityResolution :=
  match resolution, hostPolicy with
  | .resolved authority, some policy => .resolved { authority with hostPolicy := some policy }
  | resolution, _ => resolution

/-- `#loadAuthorityOnce`. The two loads are in flight together, and neither reads the other's
result. -/
def loadAuthority (kernel : SharedOSKernel) (context : AccessContext) :
    KernelM AuthorityResolution := do
  let resolved ← resolveGrants context
  let hostPolicy ← loadHostPolicy kernel context
  let resolution := withHostPolicy resolved hostPolicy
  let event ← stampEvent context (authorityResolved kernel resolution hostPolicy)
  recordDecision event
  pure resolution

/-- `#resolveAuthority`. -/
def resolveTurnAuthority (kernel : SharedOSKernel) (context : AccessContext) :
    KernelM AuthorityResolution := do
  match ← ask (.leasedAuthority (turnAuthorityKey context)) with
  | some resolution => pure resolution
  | none => loadAuthority kernel context

/-! ## The catalogue -/

/-- `#resolveToolRegistry`. -/
def resolveToolRegistry (kernel : SharedOSKernel) (context : AccessContext) :
    KernelM (Except CatalogError ToolRegistry) := do
  match ← ask (.leasedRegistry (turnAuthorityKey context)) with
  | some outcome => pure outcome
  | none => deriveToolRegistry catalogPortsOf kernel.catalog context

/-! ## The decision -/

/-- `#authorize`: decide, and record the decision before anything acts on it. -/
def decideAndRecord (kernel : SharedOSKernel) (context : AccessContext)
    (authority : ResolvedAuthority) (request : CapabilityRequirement) (consume : Bool)
    (operationId : Option JsString) : KernelM AuthorizationDecision := do
  let explained ← authorize kernel.authorizer authority request consume (some context.now)
  recordAuthorizationDecision context request explained.decision consume
    (some authority.snapshot.hash) operationId explained.explanation
  pure explained.decision

/-- Whether a resolved requirement stays in the world of the context. -/
def requirementBelongsToContext (requirement : CapabilityRequirement) (context : AccessContext) :
    Bool :=
  match requirement.resource.owner with
  | none => true
  | some owner => addressesEqual owner context.owner

/-- Whether a resolved requirement stays inside the ceiling the tool declared. -/
def requirementIsWithinDefinition (definition : ToolDefinition)
    (requirement : CapabilityRequirement) (context : AccessContext) : Bool :=
  let declared := definition.requiredCapability
  requirement.action = declared.action &&
    requirement.resource.namespace = declared.resource.namespace &&
    addressesEqual (declared.resource.owner.getD context.owner)
      (requirement.resource.owner.getD context.owner) &&
    declared.resource.path.isPrefixOf requirement.resource.path

/-! ## Exits -/

/-- A call answered without its handler's result. -/
def refusedToolResult (call : ToolCall) (status : ProtocolError → ToolOutcome)
    (completedAt code message : JsString) : ToolResult where
  callId := call.id
  tool := call.tool
  completedAt := completedAt
  outcome := status { code, message, retryable := some false, details := none }
  metadata := none

/-- Record a refusal and answer with it. -/
def refuse (kernel : SharedOSKernel) (context : AccessContext) (call : ToolCall)
    (status : ProtocolError → ToolOutcome) (code message : JsString)
    (detail : ToolResultAuditDetail) : KernelM ToolResult := do
  let result := refusedToolResult call status context.now code message
  recordToolResult kernel context call result detail
  pure result

/-- The refusal of a tool that is not there, or not for this caller. -/
def toolUnavailable (kernel : SharedOSKernel) (context : AccessContext) (call : ToolCall)
    (detail : ToolResultAuditDetail) : KernelM ToolResult :=
  refuse kernel context call .denied "tool_unavailable"
    "The requested tool is not available in this access context" detail

/-- What every report about a call carries. -/
def reportCallError (kernel : SharedOSKernel) (context : AccessContext) (call : ToolCall)
    (kind : ProviderErrorKind) (reasonCode : JsString) : KernelM Unit :=
  reportProviderError kernel context reasonCode
    { kind, operationId := some call.id, tool := some call.tool }

/-! ## The port -/

/-- A host port that does an operation's work. -/
structure WorkPort (α : Type) where
  context : AccessContext
  invoke : KernelM (PortAnswer α)
  /-- The port's answer when it is well-formed and names this operation. -/
  accept : α → Option α
  refuse : JsString → JsString → α
  invalid : JsString × JsString
  failed : JsString × JsString
  operation : ProviderErrorOperation
  /-- Record the operation as entered and stopped, under the code that stopped it. -/
  interrupted : JsString → KernelM Unit

/-- `#invokePort`. -/
def invokePort {α : Type} (kernel : SharedOSKernel) (port : WorkPort α) : KernelM α := do
  throwIfAborted
  match ← port.invoke with
  | .returned candidate =>
    -- an answer that does not parse, or that names another operation, is refused in its place
    pure ((candidate.bind port.accept).getD (port.refuse port.invalid.1 port.invalid.2))
  | .threwAuditUnavailable =>
    -- an operation nested in this one could not be recorded, so what was done is unknown
    port.interrupted auditUnavailableCode
    raise (.auditUnavailable .unknown)
  | .threw =>
    -- a signal that fired stays fired, so the throw that follows is its own
    if ← ask .signalAborted then
      port.interrupted operationAborted
      raise .aborted
    else
      reportProviderError kernel port.context port.failed.1 port.operation
      pure (port.refuse port.failed.1 port.failed.2)

/-- A host port without the call itself: how its answer is read, and what is said in its place. -/
structure PortHandling (α : Type) where
  context : AccessContext
  accept : α → Option α
  refuse : JsString → JsString → α
  invalid : JsString × JsString
  failed : JsString × JsString
  operation : ProviderErrorOperation
  interrupted : JsString → KernelM Unit

/-- How the port's answers are handled. -/
def WorkPort.handling {α : Type} (port : WorkPort α) : PortHandling α :=
  { port with }

/-- What `#invokePort` does once the port has settled. -/
def settlePort {α : Type} (kernel : SharedOSKernel) (port : PortHandling α) :
    PortAnswer α → KernelM α
  | .returned candidate =>
    pure ((candidate.bind port.accept).getD (port.refuse port.invalid.1 port.invalid.2))
  | .threwAuditUnavailable => do
    port.interrupted auditUnavailableCode
    raise (.auditUnavailable .unknown)
  | .threw => do
    if ← ask .signalAborted then
      port.interrupted operationAborted
      raise .aborted
    else
      reportProviderError kernel port.context port.failed.1 port.operation
      pure (port.refuse port.failed.1 port.failed.2)

omit [HostPlatform] in
/-- A handler is entered as the other ports are. -/
theorem invokePort_eq {α : Type} (kernel : SharedOSKernel) (port : WorkPort α) :
    invokePort kernel port =
      throwIfAborted >>= fun _ => port.invoke >>= settlePort kernel port.handling := by
  unfold invokePort
  congr 1

/-- A call that has passed every gate. -/
structure AuthorizedCall where
  context : AccessContext
  call : ToolCall
  handler : ToolHandler
  parsedCall : ToolCall
  requirement : CapabilityRequirement
  decision : AuthorizationDecision

/-- What the record of the call names: the grant and the requirement. -/
def AuthorizedCall.detail (c : AuthorizedCall) : ToolResultAuditDetail where
  grantId := c.decision.matchedGrantId
  requirement := some c.requirement

/-- The kernel's reading of what a handler answered. -/
def acceptToolResult (call : ToolCall) (candidate : ToolResult) : Option ToolResult :=
  match toolResultSchema candidate with
  | none => none
  | some parsed => if parsed.callId = call.id ∧ parsed.tool = call.tool then some parsed else none

/-- The handler, as `#invokePort` handles it. -/
def handlerPort (kernel : SharedOSKernel) (c : AuthorizedCall) : WorkPort ToolResult where
  context := c.context
  invoke := ask (.invokeHandler c.handler c.context c.parsedCall)
  accept := acceptToolResult c.call
  refuse code message := refusedToolResult c.call .failed c.context.now code message
  invalid := ("invalid_tool_result", "The tool returned an invalid protocol result")
  failed := ("tool_execution_failed", "The tool failed while executing")
  operation :=
    { kind := .tool
      operationId := some c.call.id
      tool := some c.call.tool
      resource := some c.requirement.resource
      action := some c.requirement.action }
  interrupted reasonCode :=
    recordToolInvoked kernel c.context .kernel c.call.id c.call.tool .interrupted
      (some reasonCode) c.detail

/-- Enter the handler, and record what came of it. -/
def runHandler (kernel : SharedOSKernel) (c : AuthorizedCall) : KernelM ToolResult := do
  let result ← invokePort kernel (handlerPort kernel c)
  let dispatchCause ← ask (.dispatchCause c.parsedCall)
  recordToolResult kernel c.context c.call result
    { c.detail with cause := if result.status = .succeeded then none else dispatchCause }
  pure result

/-! ## The gates -/

/-- The world, the tool's own ceiling, and the decision. -/
def decideCall (kernel : SharedOSKernel) (context : AccessContext) (call : ToolCall)
    (authority : ResolvedAuthority) (handler : ToolHandler) (parsedCall : ToolCall)
    (requirement : CapabilityRequirement) : KernelM ToolResult :=
  if !requirementBelongsToContext requirement context then do
    -- a crossing is refused by the authorizer, so that the refusal carries a recorded decision
    let crossing ← decideAndRecord kernel context authority requirement false (some call.id)
    refuse kernel context call .denied crossing.reasonCode.text
      "The requested resource lies outside this access context's world"
      { requirement := some requirement }
  else if !requirementIsWithinDefinition handler.definition requirement context then
    refuse kernel context call .failed "invalid_tool_requirement"
      "The tool resolved a capability outside its declared boundary" {}
  else do
    -- the one decision that spends a use
    let decision ← decideAndRecord kernel context authority requirement true (some call.id)
    if !decision.allowed then
      refuse kernel context call .denied decision.reasonCode.text
        "The access context does not grant this tool capability"
        { requirement := some requirement }
    else runHandler kernel { context, call, handler, parsedCall, requirement, decision }

/-- The requirement the arguments select, or the declared one. -/
def resolveCall (kernel : SharedOSKernel) (context : AccessContext) (call : ToolCall)
    (authority : ResolvedAuthority) (handler : ToolHandler) (parsedCall : ToolCall) :
    KernelM ToolResult := do
  let answer ←
    if handler.resolvesRequirement then ask (.resolveRequirement handler context parsedCall)
    else pure (.fulfilled none)
  match answer with
  | .rejected =>
    reportCallError kernel context call .tool "tool_requirement_resolution_failed"
    refuse kernel context call .failed "tool_requirement_resolution_failed"
      "The tool could not resolve its required capability" {}
  | .fulfilled resolved =>
    decideCall kernel context call authority handler parsedCall
      (resolved.getD handler.definition.requiredCapability)

/-! Each gate before the requirement takes what is left of the call behind it as a parameter. -/

/-- The arguments, as the handler's parser reads them. -/
def parseCallThen (kernel : SharedOSKernel) (context : AccessContext) (call : ToolCall)
    (handler : ToolHandler) (rest : ToolCall → KernelM ToolResult) : KernelM ToolResult := do
  let answer ← ask (.parseArguments handler call.arguments)
  let parsed := match answer with
    | .fulfilled candidate => candidate.bind jsonObjectSchema
    | .rejected => none
  match parsed with
  | none =>
    reportCallError kernel context call .tool "invalid_tool_arguments"
    refuse kernel context call .failed "invalid_tool_arguments"
      "The requested tool arguments are invalid" {}
  | some arguments => rest { call with arguments }

/-- Whether the tool's declared capability is visible to this caller at all. -/
def discoverToolThen (kernel : SharedOSKernel) (context : AccessContext) (call : ToolCall)
    (authority : ResolvedAuthority) (handler : ToolHandler) (rest : KernelM ToolResult) :
    KernelM ToolResult := do
  let declared := handler.definition.requiredCapability
  let discoverable ← canDiscover kernel.authorizer authority declared (some context.now)
  if !discoverable.decision.allowed then
    -- only a refusal to discover is recorded
    recordAuthorizationDecision context declared discoverable.decision false
      (some authority.snapshot.hash) (some call.id) discoverable.explanation
    toolUnavailable kernel context call
      { cause := some discoverable.decision.reasonCode.text, requirement := some declared }
  else rest

/-- The tool, and whether its namespace is enabled. -/
def findToolThen (kernel : SharedOSKernel) (context : AccessContext) (call : ToolCall)
    (tools : ToolRegistry) (rest : ToolHandler → KernelM ToolResult) : KernelM ToolResult :=
  match tools.get call.tool with
  | none => toolUnavailable kernel context call { cause := some "not_registered" }
  | some handler =>
    if handler.definition.namespace ∉ context.enabledToolNamespaces then
      toolUnavailable kernel context call { cause := some "namespace_disabled" }
    else rest handler

/-- The catalogue the call is answered from. -/
def findCatalogThen (kernel : SharedOSKernel) (context : AccessContext) (call : ToolCall)
    (rest : ToolRegistry → KernelM ToolResult) : KernelM ToolResult := do
  match ← resolveToolRegistry kernel context with
  | .error _ =>
    throwIfAborted
    reportCallError kernel context call .toolCatalog "tool_catalog_unavailable"
    refuse kernel context call .failed "tool_catalog_unavailable"
      "The tool catalog could not be resolved" {}
  | .ok tools => rest tools

/-- From the parse of the arguments on. -/
def parseCall (kernel : SharedOSKernel) (context : AccessContext) (call : ToolCall)
    (authority : ResolvedAuthority) (handler : ToolHandler) : KernelM ToolResult :=
  parseCallThen kernel context call handler (resolveCall kernel context call authority handler)

/-- From the gate before the tool on. -/
def discoverTool (kernel : SharedOSKernel) (context : AccessContext) (call : ToolCall)
    (authority : ResolvedAuthority) (handler : ToolHandler) : KernelM ToolResult :=
  discoverToolThen kernel context call authority handler
    (parseCall kernel context call authority handler)

/-- From the lookup of the tool on. -/
def findTool (kernel : SharedOSKernel) (context : AccessContext) (call : ToolCall)
    (authority : ResolvedAuthority) (tools : ToolRegistry) : KernelM ToolResult :=
  findToolThen kernel context call tools (discoverTool kernel context call authority)

/-- From the derivation of the catalogue on. -/
def findCatalog (kernel : SharedOSKernel) (context : AccessContext) (call : ToolCall)
    (authority : ResolvedAuthority) : KernelM ToolResult :=
  findCatalogThen kernel context call (findTool kernel context call authority)

/-- `#invokeTool`. -/
def invokeTool (kernel : SharedOSKernel) (context : AccessContext) (call : ToolCall) :
    KernelM ToolResult := do
  throwIfAborted
  if call.traceId ≠ context.traceId then
    refuse kernel context call .denied "trace_mismatch"
      "Tool call traceId does not match its access context" {}
  else
    match ← resolveTurnAuthority kernel context with
    | .unavailable .. =>
      refuse kernel context call .denied "authority_unavailable"
        "Authority could not be loaded from its trusted source" {}
    | .resolved authority => findCatalog kernel context call authority

/-! ## What a call is answered with -/

/-- The result names the call it answers. -/
def Answers (call : ToolCall) (result : ToolResult) : Prop :=
  result.callId = call.id ∧ result.tool = call.tool

section Answers

variable {kernel : SharedOSKernel} {context : AccessContext} {call : ToolCall}

theorem answers_refuse {status : ProtocolError → ToolOutcome} {code message : JsString}
    {detail : ToolResultAuditDetail} :
    Program.Returns (Answers call) (refuse kernel context call status code message detail) := by
  unfold refuse
  exact Program.returns_bind fun _ => ⟨rfl, rfl⟩

theorem answers_acceptToolResult {candidate result : ToolResult}
    (h : acceptToolResult call candidate = some result) : Answers call result := by
  unfold acceptToolResult at h
  cases hparse : toolResultSchema candidate with
  | none =>
      rw [hparse] at h
      cases h
  | some parsed =>
      rw [hparse] at h
      dsimp only at h
      split at h
      · next hnames =>
          cases h
          exact hnames
      · cases h

theorem answers_runHandler (c : AuthorizedCall) :
    Program.Returns (Answers c.call) (runHandler kernel c) := by
  have hport : Program.Returns (Answers c.call) (invokePort kernel (handlerPort kernel c)) := by
    unfold invokePort
    refine Program.returns_bind fun _ => Program.returns_bind fun answer => ?_
    cases answer with
    | returned candidate =>
        show Answers c.call ((candidate.bind (acceptToolResult c.call)).getD _)
        cases haccepted : candidate.bind (acceptToolResult c.call) with
        | none => exact ⟨rfl, rfl⟩
        | some result =>
            obtain ⟨candidate, -, haccept⟩ := Option.bind_eq_some_iff.mp haccepted
            exact answers_acceptToolResult haccept
    | threwAuditUnavailable => exact Program.returns_bind fun _ => trivial
    | threw =>
        refine Program.returns_bind fun aborted => ?_
        cases aborted with
        | true => exact Program.returns_bind fun _ => trivial
        | false => exact Program.returns_bind fun _ => ⟨rfl, rfl⟩
  unfold runHandler
  refine hport.bind fun result hresult => ?_
  exact Program.returns_bind fun _ => Program.returns_bind fun _ => hresult

theorem answers_decideCall {authority : ResolvedAuthority} {handler : ToolHandler}
    {parsedCall : ToolCall} {requirement : CapabilityRequirement} :
    Program.Returns (Answers call)
      (decideCall kernel context call authority handler parsedCall requirement) := by
  unfold decideCall
  split
  · exact Program.returns_bind fun _ => answers_refuse
  split
  · exact answers_refuse
  · refine Program.returns_bind fun decision => ?_
    split
    · exact answers_refuse
    · exact answers_runHandler
        { context, call, handler, parsedCall, requirement, decision }

theorem answers_parseCall {authority : ResolvedAuthority} {handler : ToolHandler} :
    Program.Returns (Answers call) (parseCall kernel context call authority handler) := by
  unfold parseCall parseCallThen
  refine Program.returns_bind fun answer => ?_
  dsimp only
  split
  · exact Program.returns_bind fun _ => answers_refuse
  · unfold resolveCall
    split
    · refine Program.returns_bind fun resolved => ?_
      cases resolved with
      | rejected => exact Program.returns_bind fun _ => answers_refuse
      | fulfilled requirement => exact answers_decideCall
    · exact answers_decideCall

theorem answers_findTool {authority : ResolvedAuthority} {tools : ToolRegistry} :
    Program.Returns (Answers call) (findTool kernel context call authority tools) := by
  unfold findTool findToolThen
  split
  · exact answers_refuse
  split
  · exact answers_refuse
  · unfold discoverTool discoverToolThen
    refine Program.returns_bind fun discoverable => ?_
    split
    · exact Program.returns_bind fun _ => answers_refuse
    · exact answers_parseCall

/-- **Whatever a call returns names the call.** -/
theorem answers_invokeTool :
    Program.Returns (Answers call) (invokeTool kernel context call) := by
  unfold invokeTool
  refine Program.returns_bind fun _ => ?_
  split
  · exact answers_refuse
  · refine Program.returns_bind fun resolution => ?_
    cases resolution with
    | unavailable code detail => exact answers_refuse
    | resolved authority =>
        show Program.Returns _ (findCatalog kernel context call authority)
        unfold findCatalog findCatalogThen
        refine Program.returns_bind fun outcome => ?_
        cases outcome with
        | error e =>
            exact Program.returns_bind fun _ => Program.returns_bind fun _ => answers_refuse
        | ok tools => exact answers_findTool

end Answers

end SharedOS.Kernel
