/-
SharedOS.Kernel.LiveCall — a tool call, and the objects it shares with its tool's code.

`#invokeTool` clones the context it is given, once. That clone is what it hands to the tool's
requirement resolver and then to its handler, and it is neither cloned again nor frozen. So from the
resolver on, the tool's code holds the object the call is answered from: the world and the ceiling are
checked against it, authority loaded for this one call has it as its context, the records are stamped
from it. The requirement a resolver answers with is shared in the same way. The sibling that sends a
message hands its resolver clones, and its transport a frozen one.

`Live.invokeTool` is the call with those objects in it. At each point where the code goes on after an
await it reads them again (`heldContext`, `heldRequirement`), and what is read is whatever the tool's
code has left there, as a value of the field's own type. Before the resolver nobody else has the
context: the arguments' parser gets the arguments alone, every loader and provider a clone, and the
authorizer's walk works on clones of what it was given. What a lease holds is the lease's own. A tool
without a resolver shares its context only from its handler on, and the capability a tool declares is
frozen.

The gates up to the resolver are `invokeTool`'s own. Where the tool's code writes nothing, a live run
is a run of `invokeTool` (`finishes_of_untouched`): the call is the one with values in it, told in
advance that every object is as it was.
-/
import SharedOS.Core.Loading
import SharedOS.Kernel.AuditMediation

namespace SharedOS.Kernel.Live

open SharedOS.Foundation SharedOS.Contracts SharedOS.Core

/-! ## What the tool's code holds -/

/-- Which objects of the call its tool's code holds. -/
structure Held where
  context : Bool
  requirement : Bool

/-- The call's context, as it stands. -/
def contextNow (held : Bool) (since : Await) (was : AccessContext) : KernelM AccessContext :=
  if held then ask (.heldContext since was) else pure was

/-- The requirement being decided, as it stands. -/
def requirementNow (held : Bool) (since : Await) (was : CapabilityRequirement) :
    KernelM CapabilityRequirement :=
  if held then ask (.heldRequirement since was) else pure was

/-- A call that has passed every gate, with what it shares as it stands. -/
def callNow (held : Held) (since : Await) (c : AuthorizedCall) : KernelM AuthorizedCall := do
  let context ← contextNow held.context since c.context
  let requirement ← requirementNow held.requirement since c.requirement
  pure { c with context, requirement }

section Definitions

variable [HostPlatform]

/-! ## The call -/

/-- `#authorize`. The request has the action it was made with, and the resource as an object. -/
def decideAndRecord (kernel : SharedOSKernel) (held : Held) (context : AccessContext)
    (authority : ResolvedAuthority) (requirement : CapabilityRequirement) (consume : Bool)
    (operationId : Option JsString) : KernelM AuthorizationDecision := do
  let explained ← authorize kernel.authorizer authority requirement consume (some context.now)
  let context ← contextNow held.context .decided context
  let request ← requirementNow held.requirement .decided requirement
  recordAuthorizationDecision context { requirement with resource := request.resource }
    explained.decision consume (some authority.snapshot.hash) operationId explained.explanation
  pure explained.decision

/-- Enter the handler, and record what came of it. -/
def runHandler (kernel : SharedOSKernel) (held : Held) (c : AuthorizedCall) :
    KernelM ToolResult := do
  throwIfAborted
  let answer ← ask (.invokeHandler c.handler c.context c.parsedCall)
  -- the handler has the context, whoever resolved the requirement
  let held := { held with context := true }
  let answered ← callNow held .answered c
  -- what a throw is reported as has the action the handler was entered with
  let operation := { (handlerPort kernel answered).operation with action := some c.requirement.action }
  let result ← settlePort kernel { (handlerPort kernel answered).handling with operation } answer
  let settled ← callNow held .settled answered
  let dispatchCause ← ask (.dispatchCause settled.parsedCall)
  recordToolResult kernel settled.context settled.call result
    { settled.detail with cause := if result.status = .succeeded then none else dispatchCause }
  pure result

/-- The world, the tool's own ceiling, and the decision, all on what the resolver left. -/
def decideCall (kernel : SharedOSKernel) (held : Held) (loaded : Bool) (context : AccessContext)
    (call : ToolCall) (authority : ResolvedAuthority) (handler : ToolHandler)
    (parsedCall : ToolCall) (requirement : CapabilityRequirement) : KernelM ToolResult :=
  -- authority loaded for this call has the call's own context
  let authority := if loaded then { authority with context } else authority
  if !requirementBelongsToContext requirement context then do
    let crossing ←
      decideAndRecord kernel held context authority requirement false (some call.id)
    let context ← contextNow held.context .recorded context
    let requirement ← requirementNow held.requirement .recorded requirement
    refuse kernel context call .denied crossing.reasonCode.text
      "The requested resource lies outside this access context's world"
      { requirement := some requirement }
  else if !requirementIsWithinDefinition handler.definition requirement context then
    refuse kernel context call .failed "invalid_tool_requirement"
      "The tool resolved a capability outside its declared boundary" {}
  else do
    let decision ←
      decideAndRecord kernel held context authority requirement true (some call.id)
    let context ← contextNow held.context .recorded context
    let requirement ← requirementNow held.requirement .recorded requirement
    if !decision.allowed then
      refuse kernel context call .denied decision.reasonCode.text
        "The access context does not grant this tool capability"
        { requirement := some requirement }
    else runHandler kernel held { context, call, handler, parsedCall, requirement, decision }

/-- The requirement the arguments select, or the declared one. -/
def resolveCall (kernel : SharedOSKernel) (loaded : Bool) (context : AccessContext)
    (call : ToolCall) (authority : ResolvedAuthority) (handler : ToolHandler)
    (parsedCall : ToolCall) : KernelM ToolResult :=
  let declared := handler.definition.requiredCapability
  if handler.resolvesRequirement then do
    let answer ← ask (.resolveRequirement handler context parsedCall)
    let left ← contextNow true .resolved context
    match answer with
    | .rejected =>
      reportCallError kernel left call .tool "tool_requirement_resolution_failed"
      refuse kernel left call .failed "tool_requirement_resolution_failed"
        "The tool could not resolve its required capability" {}
    | .fulfilled resolved =>
      decideCall kernel { context := true, requirement := resolved.isSome } loaded left call
        authority handler parsedCall (resolved.getD declared)
  else
    decideCall kernel { context := false, requirement := false } loaded context call authority
      handler parsedCall declared

/-- The gates that come before, which see the call's own context. -/
def answerCall (kernel : SharedOSKernel) (context : AccessContext) (call : ToolCall)
    (loaded : Bool) : AuthorityResolution → KernelM ToolResult
  | .unavailable .. =>
    refuse kernel context call .denied "authority_unavailable"
      "Authority could not be loaded from its trusted source" {}
  | .resolved authority =>
    findCatalogThen kernel context call fun tools =>
      findToolThen kernel context call tools fun handler =>
        discoverToolThen kernel context call authority handler
          (parseCallThen kernel context call handler
            (resolveCall kernel loaded context call authority handler))

/-- `#invokeTool`, with what it shares. -/
def invokeTool (kernel : SharedOSKernel) (context : AccessContext) (call : ToolCall) :
    KernelM ToolResult := do
  throwIfAborted
  if call.traceId ≠ context.traceId then
    refuse kernel context call .denied "trace_mismatch"
      "Tool call traceId does not match its access context" {}
  else
    match ← ask (.leasedAuthority (turnAuthorityKey context)) with
    | some resolution => answerCall kernel context call false resolution
    | none => loadAuthority kernel context >>= answerCall kernel context call true

end Definitions

/-! ## Reading what is shared -/

section Reading

variable {held : Held} {since : Await}

theorem quiet_contextNow {held : Bool} (was : AccessContext) :
    Quiet (contextNow held since was) := by
  unfold contextNow
  split
  · exact ⟨trivial, fun _ => trivial⟩
  · exact Program.uses_done _

theorem quiet_requirementNow {held : Bool} (was : CapabilityRequirement) :
    Quiet (requirementNow held since was) := by
  unfold requirementNow
  split
  · exact ⟨trivial, fun _ => trivial⟩
  · exact Program.uses_done _

/-- What is read is what was answered, or where nobody holds it what it was. -/
theorem finishes_requirementNow {held : Bool} {was now : CapabilityRequirement} {t : KernelTrace}
    (h : Program.Finishes (requirementNow held since was) t (.ok now)) :
    if held then t = [⟨.heldRequirement since was, now⟩] else now = was := by
  unfold requirementNow at h
  cases held with
  | true =>
      obtain ⟨x, u, rfl, hdone⟩ := Program.finishes_ask.mp h
      obtain ⟨rfl, heq⟩ := Program.finishes_done.mp hdone
      cases heq
      rfl
  | false => exact Except.ok.inj (Program.finishes_done.mp h).2

theorem quiet_callNow (c : AuthorizedCall) : Quiet (callNow held since c) :=
  (quiet_contextNow _).bind fun _ => (quiet_requirementNow _).bind fun _ => Program.uses_done _

end Reading

section Runs

variable [HostPlatform] {kernel : SharedOSKernel} {held : Held} {loaded : Bool}
  {context : AccessContext} {call : ToolCall} {authority : ResolvedAuthority}
  {handler : ToolHandler} {parsedCall : ToolCall}

/-! ## A tool that writes nothing -/

/-- What an object nobody writes to is read as. -/
def asItWas : (o : KernelOp) → Option o.Answer
  | .heldContext _ was => some was
  | .heldRequirement _ was => some was
  | _ => none

/-- The program reads nothing that is shared. -/
abbrev Unshared {α : Type} (p : KernelM α) : Prop := Program.Uses (fun o => asItWas o = none) p

section Untouched

variable {α : Type}

omit [HostPlatform] in
theorem unshared_of_plain {p : KernelM α} (h : Program.Uses Plain p) : Unshared p := by
  apply h.mono
  intro o ho
  cases o <;> first | rfl | exact ho.elim

omit [HostPlatform] in
theorem Unshared.bind_answering {β : Type} {p : KernelM α} (hp : Unshared p)
    {f g : α → KernelM β} (hf : ∀ a, (f a).answering asItWas = g a) :
    (p >>= f).answering asItWas = p >>= g := by
  rw [Program.answering_bind, hp.answering_eq]
  exact congrArg _ (funext hf)

omit [HostPlatform] in
theorem unshared_stampEvent {input : AuditEventInput} : Unshared (stampEvent context input) :=
  ⟨rfl, fun _ => trivial⟩

omit [HostPlatform] in
theorem unshared_recordDecision (event : AuditEvent) : Unshared (recordDecision event) := by
  refine ⟨rfl, fun answer => ?_⟩
  cases answer <;> trivial

omit [HostPlatform] in
theorem unshared_recordAuthorizationDecision {request : CapabilityRequirement}
    {decision : AuthorizationDecision} {consume : Bool} {authorityHash operationId : Option JsString}
    {explanation : Option AuthorizationExplanation} :
    Unshared (recordAuthorizationDecision context request decision consume authorityHash operationId
      explanation) :=
  unshared_stampEvent.bind fun _ => unshared_recordDecision _

theorem unshared_recordToolInvoked {source : AuditSource} {callId tool : JsString}
    {outcome : AuditOutcome} {reasonCode : Option JsString} {detail : ToolResultAuditDetail} :
    Unshared (recordToolInvoked kernel context source callId tool outcome reasonCode detail) := by
  refine ⟨rfl, fun hash => ⟨rfl, fun id => ⟨rfl, fun answer => ?_⟩⟩⟩
  cases answer with
  | fulfilled => trivial
  | rejected =>
      show Unshared (if kernel.reportsAuditErrors then ask (.onAuditError _) else pure ())
      split
      · exact ⟨rfl, fun _ => trivial⟩
      · trivial

theorem unshared_refuse {status : ProtocolError → ToolOutcome} {code message : JsString}
    {detail : ToolResultAuditDetail} :
    Unshared (refuse kernel context call status code message detail) :=
  unshared_recordToolInvoked.bind fun _ => trivial

theorem unshared_refuseReported {kind : ProviderErrorKind} {reasonCode : JsString}
    {status : ProtocolError → ToolOutcome} {code message : JsString}
    {detail : ToolResultAuditDetail} :
    Unshared (reportCallError kernel context call kind reasonCode >>= fun _ =>
      refuse kernel context call status code message detail) :=
  (unshared_of_plain (plain_reportProviderError ..)).bind fun _ => unshared_refuse

theorem unshared_loadAuthority : Unshared (loadAuthority kernel context) := by
  unfold loadAuthority
  refine (unshared_of_plain (plain_resolveGrants context)).bind fun resolved => ?_
  refine (unshared_of_plain (plain_loadHostPolicy kernel context)).bind fun hostPolicy => ?_
  refine unshared_stampEvent.bind fun event => ?_
  exact (unshared_recordDecision event).bind fun _ => trivial

theorem unshared_settlePort {c : AuthorizedCall} {operation : ProviderErrorOperation}
    {answer : PortAnswer ToolResult} :
    Unshared (settlePort kernel { (handlerPort kernel c).handling with operation } answer) := by
  cases answer with
  | returned candidate => trivial
  | threwAuditUnavailable => exact unshared_recordToolInvoked.bind fun _ => trivial
  | threw =>
      refine ⟨rfl, fun aborted => ?_⟩
      cases aborted with
      | true => exact unshared_recordToolInvoked.bind fun _ => trivial
      | false => exact (unshared_of_plain (plain_reportProviderError ..)).bind fun _ => trivial

omit [HostPlatform] in
theorem contextNow_bind_answering {held : Bool} {since : Await} {was : AccessContext}
    {f : AccessContext → KernelM α} :
    (contextNow held since was >>= f).answering asItWas = (f was).answering asItWas := by
  unfold contextNow
  split
  · exact Program.answering_known rfl
  · rfl

omit [HostPlatform] in
theorem requirementNow_bind_answering {held : Bool} {since : Await} {was : CapabilityRequirement}
    {f : CapabilityRequirement → KernelM α} :
    (requirementNow held since was >>= f).answering asItWas = (f was).answering asItWas := by
  unfold requirementNow
  split
  · exact Program.answering_known rfl
  · rfl

omit [HostPlatform] in
theorem callNow_bind_answering {since : Await} {c : AuthorizedCall} {f : AuthorizedCall → KernelM α} :
    (callNow held since c >>= f).answering asItWas = (f c).answering asItWas := by
  unfold callNow
  rw [Program.bind_assoc, contextNow_bind_answering, Program.bind_assoc,
    requirementNow_bind_answering]
  rfl

theorem answering_decideAndRecord {requirement : CapabilityRequirement} {consume : Bool}
    {operationId : Option JsString} :
    (decideAndRecord kernel held context authority requirement consume operationId).answering asItWas =
      Kernel.decideAndRecord kernel context authority requirement consume operationId := by
  unfold decideAndRecord Kernel.decideAndRecord
  apply (unshared_of_plain (plain_decideOnGrants ..)).bind_answering
  intro explained
  rw [contextNow_bind_answering, requirementNow_bind_answering]
  exact (unshared_recordAuthorizationDecision.bind fun _ => Program.uses_done _).answering_eq

theorem answering_runHandler (c : AuthorizedCall) :
    (runHandler kernel held c).answering asItWas = Kernel.runHandler kernel c := by
  unfold runHandler Kernel.runHandler
  rw [invokePort_eq, Program.bind_assoc]
  apply (unshared_of_plain plain_throwIfAborted).bind_answering
  intro _
  rw [Program.bind_assoc]
  apply Unshared.bind_answering (p := ask (.invokeHandler c.handler c.context c.parsedCall))
    ⟨rfl, fun _ => trivial⟩
  intro answer
  dsimp only
  rw [callNow_bind_answering]
  apply unshared_settlePort.bind_answering
  intro result
  rw [callNow_bind_answering]
  exact Program.Uses.answering_eq
    ⟨rfl, fun _ => unshared_recordToolInvoked.bind fun _ => trivial⟩

theorem answering_decideCall {requirement : CapabilityRequirement} {left : AccessContext}
    (hleft : (if loaded then { authority with context := left } else authority) = authority) :
    (decideCall kernel held loaded left call authority handler parsedCall
      requirement).answering asItWas =
      Kernel.decideCall kernel left call authority handler parsedCall requirement := by
  unfold decideCall Kernel.decideCall
  dsimp only
  rw [hleft]
  split
  · rw [Program.answering_bind, answering_decideAndRecord]
    congr 1
    funext crossing
    rw [contextNow_bind_answering, requirementNow_bind_answering]
    exact unshared_refuse.answering_eq
  split
  · exact unshared_refuse.answering_eq
  · rw [Program.answering_bind, answering_decideAndRecord]
    congr 1
    funext decision
    rw [contextNow_bind_answering, requirementNow_bind_answering]
    split
    · exact unshared_refuse.answering_eq
    · exact answering_runHandler _

theorem answering_resolveCall
    (hloaded : (if loaded then { authority with context } else authority) = authority) :
    (resolveCall kernel loaded context call authority handler parsedCall).answering asItWas =
      Kernel.resolveCall kernel context call authority handler parsedCall := by
  unfold resolveCall Kernel.resolveCall
  dsimp only
  split
  · apply Unshared.bind_answering (p := ask (.resolveRequirement handler context parsedCall))
      ⟨rfl, fun _ => trivial⟩
    intro answer
    rw [contextNow_bind_answering]
    cases answer with
    | rejected => exact unshared_refuseReported.answering_eq
    | fulfilled resolved => exact answering_decideCall hloaded
  · exact answering_decideCall hloaded

theorem answering_parseCallThen {f g : ToolCall → KernelM ToolResult}
    (h : ∀ parsedCall, (f parsedCall).answering asItWas = g parsedCall) :
    (parseCallThen kernel context call handler f).answering asItWas =
      parseCallThen kernel context call handler g := by
  unfold parseCallThen
  apply Unshared.bind_answering (p := ask (.parseArguments handler call.arguments))
    ⟨rfl, fun _ => trivial⟩
  intro answer
  dsimp only
  split
  · exact unshared_refuseReported.answering_eq
  · exact h _

theorem answering_discoverToolThen {p q : KernelM ToolResult} (h : p.answering asItWas = q) :
    (discoverToolThen kernel context call authority handler p).answering asItWas =
      discoverToolThen kernel context call authority handler q := by
  unfold discoverToolThen
  apply (unshared_of_plain (plain_decideOnGrants ..)).bind_answering
  intro discoverable
  split
  · exact (unshared_recordAuthorizationDecision.bind fun _ => unshared_refuse).answering_eq
  · exact h

theorem answering_findToolThen {tools : ToolRegistry} {f g : ToolHandler → KernelM ToolResult}
    (h : ∀ handler, (f handler).answering asItWas = g handler) :
    (findToolThen kernel context call tools f).answering asItWas =
      findToolThen kernel context call tools g := by
  unfold findToolThen
  split
  · exact unshared_refuse.answering_eq
  · split
    · exact unshared_refuse.answering_eq
    · exact h _

theorem answering_findCatalogThen {f g : ToolRegistry → KernelM ToolResult}
    (h : ∀ tools, (f tools).answering asItWas = g tools) :
    (findCatalogThen kernel context call f).answering asItWas =
      findCatalogThen kernel context call g := by
  unfold findCatalogThen
  apply (unshared_of_plain (plain_resolveToolRegistry kernel context)).bind_answering
  intro outcome
  cases outcome with
  | error e =>
      exact ((unshared_of_plain plain_throwIfAborted).bind fun _ =>
        unshared_refuseReported).answering_eq
  | ok tools => exact h tools

theorem answering_answerCall (loaded : Bool)
    (hloaded : (if loaded then { authority with context } else authority) = authority) :
    (answerCall kernel context call loaded (.resolved authority)).answering asItWas =
      findCatalog kernel context call authority := by
  apply answering_findCatalogThen
  intro tools
  apply answering_findToolThen
  intro handler
  apply answering_discoverToolThen
  apply answering_parseCallThen
  intro parsedCall
  exact answering_resolveCall hloaded

omit [HostPlatform] in
theorem context_of_withHostPolicy {resolution : AuthorityResolution}
    {hostPolicy : Option PolicyResolution}
    (h : ∀ authority, resolution = .resolved authority → authority.context = context)
    (hresolved : withHostPolicy resolution hostPolicy = .resolved authority) :
    authority.context = context := by
  cases resolution with
  | unavailable code detail => cases hostPolicy <;> cases hresolved
  | resolved resolved =>
      have hcontext := h resolved rfl
      cases hostPolicy <;> cases hresolved <;> exact hcontext

/-- Authority loaded for a call is for the call's own context. -/
theorem loadAuthority_context : Program.Returns
    (fun resolution => ∀ authority, resolution = .resolved authority → authority.context = context)
    (loadAuthority kernel context) := by
  have hresolve (loaded : Settled LoadedGrants) : ∀ authority,
      resolveAuthority context loaded = .resolved authority → authority.context = context := by
    intro authority h
    obtain ⟨_, _, _, _, _, rfl⟩ := resolved_iff.mp h
    rfl
  have hgrants : Program.Returns
      (fun resolution => ∀ authority, resolution = .resolved authority → authority.context = context)
      (resolveGrants context) := by
    intro answer
    dsimp only [Program.bind]
    split
    · exact Program.returns_bind fun _ => hresolve .rejected
    · exact hresolve _
  unfold loadAuthority
  apply hgrants.bind
  intro resolved hresolved
  apply Program.returns_bind
  intro hostPolicy
  apply Program.returns_bind
  intro event
  apply Program.returns_bind
  exact fun _ _ => context_of_withHostPolicy hresolved

/-- Told that its objects are as they were, the call is `invokeTool`. -/
theorem answering_invokeTool :
    (invokeTool kernel context call).answering asItWas = Kernel.invokeTool kernel context call := by
  unfold invokeTool Kernel.invokeTool
  apply (unshared_of_plain plain_throwIfAborted).bind_answering
  intro _
  split
  · exact unshared_refuse.answering_eq
  · unfold resolveTurnAuthority
    rw [Program.bind_assoc]
    apply Unshared.bind_answering (p := ask (.leasedAuthority (turnAuthorityKey context)))
      ⟨rfl, fun _ => trivial⟩
    intro leased
    cases leased with
    | some resolution =>
        cases resolution with
        | unavailable code detail => exact unshared_refuse.answering_eq
        | resolved authority => exact answering_answerCall false rfl
    | none =>
        rw [Program.answering_bind, unshared_loadAuthority.answering_eq]
        refine loadAuthority_context.bind_congr fun resolution hcontext => ?_
        cases resolution with
        | unavailable code detail => exact unshared_refuse.answering_eq
        | resolved authority =>
            have hsame := hcontext authority rfl
            subst hsame
            exact answering_answerCall true rfl

/-- **Where the tool's code writes nothing**, the call is `invokeTool`. -/
theorem finishes_of_untouched {t : KernelTrace} {r : Except KernelError ToolResult}
    (huntouched : ∀ e ∈ t, ∀ was, asItWas e.1 = some was → e.2 = was)
    (h : Program.Finishes (invokeTool kernel context call) t r) :
    Program.Finishes (Kernel.invokeTool kernel context call)
      (t.filter fun e => (asItWas e.1).isNone) r := by
  have hreaches := Program.Reaches.answering h huntouched
  rw [answering_invokeTool] at hreaches
  cases r <;> exact hreaches

end Untouched

end Runs

open scoped SharedOS.Foundation.Reference in
/-- The handler is handed the context, which is read again after it, and leaves it alone. -/
theorem finishes_of_untouched_reader : ∃ t r,
    Program.Finishes (invokeTool Kernel.Sample.kernel Core.Sample.context Kernel.Sample.call) t r ∧
    (∃ e ∈ t, (asItWas e.1).isSome) ∧
    Program.Finishes (Kernel.invokeTool Kernel.Sample.kernel Core.Sample.context Kernel.Sample.call)
      (t.filter fun e => (asItWas e.1).isNone) r := by
  let whole := Program.runWith Kernel.Sample.surroundings
    (invokeTool Kernel.Sample.kernel Core.Sample.context Kernel.Sample.call)
  have hrun : Program.Finishes
      (invokeTool Kernel.Sample.kernel Core.Sample.context Kernel.Sample.call) whole.1 whole.2 :=
    Program.finishes_runWith _ _
  have hread : (whole.1.any fun e => (asItWas e.1).isSome) = true := rfl
  refine ⟨whole.1, whole.2, hrun, List.any_eq_true.mp hread, ?_⟩
  refine finishes_of_untouched (fun e he was hwas => ?_) hrun
  obtain ⟨o, x⟩ := e
  have hanswer : x = Kernel.Sample.surroundings o :=
    eq_of_heq (Sigma.mk.inj (Program.mem_runWith he)).2
  subst hanswer
  cases o <;> first | exact Option.some.inj hwas | cases hwas

end SharedOS.Kernel.Live
