/-
SharedOS.Kernel.Completion — a call that nothing interrupts comes back with a well-formed result.

The sink accepts every write, the signal has not fired and no port reports an outage of its own
(`Accepting`). Then no gate of `invokeTool` throws, and whatever exit the call takes, what it is
answered with is a result the contract accepts as it stands (`completes_invokeTool`).
-/
import SharedOS.Kernel.Frames

namespace SharedOS.Kernel

open SharedOS.Foundation SharedOS.Contracts SharedOS.Core

/-- A write is accepted, the signal has not fired, and a handler that throws does not throw an audit
outage. -/
def Accepting : KernelEvent → Prop
  | ⟨.record _, answer⟩ => answer = .fulfilled ()
  | ⟨.signalAborted, aborted⟩ => aborted = false
  | ⟨.invokeHandler .., answer⟩ => answer ≠ .threwAuditUnavailable
  | _ => True

/-- Nothing interrupts the program, and what it returns meets `P`. -/
abbrev Completing {α : Type} (P : α → Prop) (p : KernelM α) : Prop :=
  Program.Completes Accepting P p

/-- Nothing interrupts the program. -/
abbrev Uninterrupted {α : Type} (p : KernelM α) : Prop := Completing (fun _ => True) p

/-! ## The parts -/

theorem uninterrupted_ask {o : KernelOp} : Uninterrupted (ask o) := fun _ _ => trivial

theorem uninterrupted_pure {α : Type} {a : α} : Uninterrupted (pure a : KernelM α) := trivial

theorem completing_bind {α β : Type} {Q : β → Prop} {p : KernelM α} {f : α → KernelM β}
    (hp : Uninterrupted p) (hf : ∀ a, Completing Q (f a)) : Completing Q (p >>= f) :=
  Program.Completes.bind hp fun a _ => hf a

theorem uninterrupted_throwIfAborted : Uninterrupted throwIfAborted := by
  intro aborted haborted
  rw [show aborted = false from haborted]
  trivial

theorem uninterrupted_reportProviderError {kernel : SharedOSKernel} {context : AccessContext}
    {reasonCode : JsString} {operation : ProviderErrorOperation} :
    Uninterrupted (reportProviderError kernel context reasonCode operation) := by
  unfold reportProviderError
  split
  · exact uninterrupted_ask
  · exact uninterrupted_pure

theorem uninterrupted_stampEvent {context : AccessContext} {input : AuditEventInput} :
    Uninterrupted (stampEvent context input) :=
  completing_bind uninterrupted_ask fun _ => uninterrupted_pure

theorem uninterrupted_recordDecision {event : AuditEvent} :
    Uninterrupted (recordDecision event) := by
  intro answer hanswer
  rw [show answer = .fulfilled () from hanswer]
  trivial

theorem uninterrupted_recordOutcome {kernel : SharedOSKernel} {event : AuditEvent} :
    Uninterrupted (recordOutcome kernel event) := by
  intro answer hanswer
  rw [show answer = .fulfilled () from hanswer]
  trivial

theorem uninterrupted_recordAuthorizationDecision {context : AccessContext}
    {request : CapabilityRequirement} {decision : AuthorizationDecision} {consume : Bool}
    {authorityHash operationId : Option JsString} {explanation : Option AuthorizationExplanation} :
    Uninterrupted (recordAuthorizationDecision context request decision consume authorityHash
      operationId explanation) :=
  completing_bind uninterrupted_stampEvent fun _ => uninterrupted_recordDecision

section Kernel

variable [HostPlatform] {kernel : SharedOSKernel} {context : AccessContext} {call : ToolCall}

theorem uninterrupted_recordToolInvoked {source : AuditSource} {callId tool : JsString}
    {outcome : AuditOutcome} {reasonCode : Option JsString} {detail : ToolResultAuditDetail} :
    Uninterrupted (recordToolInvoked kernel context source callId tool outcome reasonCode
      detail) :=
  completing_bind uninterrupted_ask fun _ => completing_bind uninterrupted_stampEvent fun _ =>
    uninterrupted_recordOutcome

theorem uninterrupted_recordToolResult {result : ToolResult} {detail : ToolResultAuditDetail} :
    Uninterrupted (recordToolResult kernel context call result detail) :=
  uninterrupted_recordToolInvoked

/-! ## Authority, catalogue, decision -/

theorem uninterrupted_decideOnGrants {authority : ResolvedAuthority}
    {request : CapabilityRequirement} {matcher : Matcher} {consume : Bool}
    {operationNow : Option JsString} {describeMissing : Bool} :
    Uninterrupted (decideOnGrants kernel.authorizer authority request matcher consume
      operationNow describeMissing) :=
  compositional_decideOnGrants (Program.completes_compositional Accepting)
    (portsMeet_authorizer kernel (fun _ => uninterrupted_ask) consume) authority request matcher
    operationNow describeMissing

theorem uninterrupted_decideAndRecord {authority : ResolvedAuthority}
    {request : CapabilityRequirement} {consume : Bool} {operationId : Option JsString} :
    Uninterrupted (decideAndRecord kernel context authority request consume operationId) :=
  completing_bind uninterrupted_decideOnGrants fun _ =>
    completing_bind uninterrupted_recordAuthorizationDecision fun _ => trivial

omit [HostPlatform] in
theorem uninterrupted_loadHostPolicy : Uninterrupted (loadHostPolicy kernel context) := by
  have houtage : Uninterrupted (reportPolicyOutage kernel context) :=
    uninterrupted_reportProviderError
  unfold loadHostPolicy
  split
  · exact uninterrupted_pure
  · refine completing_bind uninterrupted_ask fun answer => ?_
    split
    · exact completing_bind uninterrupted_throwIfAborted fun _ => completing_bind houtage fun _ => trivial
    · exact completing_bind houtage fun _ => trivial
    · split
      · exact completing_bind houtage fun _ => trivial
      · trivial

theorem uninterrupted_resolveGrants : Uninterrupted (resolveGrants context) := by
  unfold resolveGrants
  refine completing_bind uninterrupted_ask fun answer => ?_
  split
  · exact completing_bind uninterrupted_throwIfAborted fun _ => trivial
  · trivial

theorem uninterrupted_resolveTurnAuthority :
    Uninterrupted (resolveTurnAuthority kernel context) := by
  unfold resolveTurnAuthority
  refine completing_bind uninterrupted_ask fun leased => ?_
  cases leased with
  | some resolution => trivial
  | none =>
      exact completing_bind uninterrupted_resolveGrants fun _ =>
        completing_bind uninterrupted_loadHostPolicy fun _ => completing_bind uninterrupted_stampEvent fun _ =>
          completing_bind uninterrupted_recordDecision fun _ => trivial

omit [HostPlatform] in
theorem uninterrupted_listProviders {registry : ToolRegistry} {providers : List JsString} :
    Uninterrupted (listProviders catalogPortsOf context registry providers) := by
  have haborted : Uninterrupted catalogPortsOf.aborted := uninterrupted_ask
  induction providers generalizing registry with
  | nil => trivial
  | cons provider rest ih =>
      unfold listProviders
      refine completing_bind haborted fun aborted => ?_
      split
      · trivial
      refine completing_bind uninterrupted_ask fun answer => ?_
      split
      · refine completing_bind haborted fun aborted => ?_
        split <;> trivial
      · trivial
      · split
        · trivial
        · exact ih

theorem uninterrupted_resolveToolRegistry :
    Uninterrupted (resolveToolRegistry kernel context) := by
  unfold resolveToolRegistry
  refine completing_bind uninterrupted_ask fun leased => ?_
  cases leased with
  | some outcome => trivial
  | none =>
      show Uninterrupted (deriveToolRegistry catalogPortsOf kernel.catalog context)
      unfold deriveToolRegistry
      split
      · trivial
      · exact uninterrupted_listProviders

/-! ## What a call is answered with -/

/-- A result the contract accepts as it stands. -/
def WellFormed (result : ToolResult) : Prop := toolResultSchema result = some result

/-- The call and the instant it is answered at are what their schemas leave as they are. -/
structure Answerable (context : AccessContext) (call : ToolCall) : Prop where
  id : identifierSchema call.id = some call.id
  tool : identifierSchema call.tool = some call.tool
  now : timestampSchema context.now = some context.now

/-- The two statuses a refusal can have. -/
def Refuses (status : ProtocolError → ToolOutcome) : Prop :=
  status = .denied ∨ status = .failed

/-- A code and a message the contract accepts. -/
def Worded (code message : JsString) : Prop :=
  identifierSchema code = some code ∧ boundedString 4096 message = some message

/-- **A refusal is well-formed.** -/
theorem wellFormed_refusedToolResult (h : Answerable context call)
    {status : ProtocolError → ToolOutcome} {code message : JsString} (hstatus : Refuses status)
    (hworded : Worded code message) :
    WellFormed (refusedToolResult call status context.now code message) := by
  have herror : protocolErrorSchema { code, message, retryable := some false, details := none } =
      some { code, message, retryable := some false, details := none } := by
    unfold protocolErrorSchema
    dsimp only
    rw [hworded.1, hworded.2]
    rfl
  have houtcome : toolOutcomeSchema
      (status { code, message, retryable := some false, details := none }) =
        some (status { code, message, retryable := some false, details := none }) := by
    rcases hstatus with rfl | rfl
    · show (protocolErrorSchema _).map _ = _
      rw [herror, Option.map_some]
    · show (protocolErrorSchema _).map _ = _
      rw [herror, Option.map_some]
  unfold WellFormed toolResultSchema refusedToolResult
  dsimp only
  rw [h.id, h.tool, h.now, houtcome]
  rfl

theorem completing_refuse (h : Answerable context call) {status : ProtocolError → ToolOutcome}
    {code message : JsString} {detail : ToolResultAuditDetail} (hstatus : Refuses status)
    (hworded : Worded code message) :
    Completing WellFormed (refuse kernel context call status code message detail) :=
  completing_bind uninterrupted_recordToolResult fun _ =>
    wellFormed_refusedToolResult h hstatus hworded

omit [HostPlatform] in
theorem identifierSchema_reasonCode (code : AuthorizationReasonCode) :
    identifierSchema code.text = some code.text := by
  cases code <;> decide +kernel

theorem completing_toolUnavailable (h : Answerable context call)
    {detail : ToolResultAuditDetail} :
    Completing WellFormed (toolUnavailable kernel context call detail) :=
  completing_refuse h (.inl rfl) ⟨by decide +kernel, by decide +kernel⟩

/-- **Whatever the handler answers**, what is taken of it is well-formed. -/
theorem completing_runHandler {c : AuthorizedCall} (h : Answerable c.context c.call) :
    Completing WellFormed (runHandler kernel c) := by
  have hinvalid : Worded (handlerPort kernel c).invalid.1 (handlerPort kernel c).invalid.2 := by
    show Worded "invalid_tool_result" "The tool returned an invalid protocol result"
    exact ⟨by decide +kernel, by decide +kernel⟩
  have hfailed : Worded (handlerPort kernel c).failed.1 (handlerPort kernel c).failed.2 := by
    show Worded "tool_execution_failed" "The tool failed while executing"
    exact ⟨by decide +kernel, by decide +kernel⟩
  have hport : Completing WellFormed (invokePort kernel (handlerPort kernel c)) := by
    refine completing_bind uninterrupted_throwIfAborted fun _ => fun answer hanswer => ?_
    cases answer with
    | returned candidate =>
        show WellFormed ((candidate.bind (acceptToolResult c.call)).getD _)
        cases haccepted : candidate.bind (acceptToolResult c.call) with
        | none =>
            exact wellFormed_refusedToolResult h (.inr rfl) hinvalid
        | some result =>
            obtain ⟨candidate, -, haccept⟩ := Option.bind_eq_some_iff.mp haccepted
            unfold acceptToolResult at haccept
            cases hparsed : toolResultSchema candidate with
            | none =>
                rw [hparsed] at haccept
                cases haccept
            | some parsed =>
                rw [hparsed] at haccept
                dsimp only at haccept
                split at haccept
                · cases haccept
                  exact toolResultSchema_idem hparsed
                · cases haccept
    | threwAuditUnavailable => exact absurd rfl hanswer
    | threw =>
        intro aborted haborted
        rw [show aborted = false from haborted]
        show Completing WellFormed (reportProviderError kernel _ _ _ >>= fun _ => pure _)
        exact completing_bind uninterrupted_reportProviderError fun _ =>
          wellFormed_refusedToolResult h (.inr rfl) hfailed
  unfold runHandler
  refine Program.Completes.bind hport fun result hresult => ?_
  exact completing_bind uninterrupted_ask fun _ =>
    completing_bind uninterrupted_recordToolResult fun _ => hresult

theorem completing_decideCall (h : Answerable context call) {authority : ResolvedAuthority}
    {handler : ToolHandler} {parsedCall : ToolCall} {requirement : CapabilityRequirement} :
    Completing WellFormed
      (decideCall kernel context call authority handler parsedCall requirement) := by
  unfold decideCall
  split
  · refine completing_bind uninterrupted_decideAndRecord fun crossing => ?_
    exact completing_refuse h (.inl rfl)
      ⟨identifierSchema_reasonCode crossing.reasonCode, by decide +kernel⟩
  split
  · exact completing_refuse h (.inr rfl) ⟨by decide +kernel, by decide +kernel⟩
  · refine completing_bind uninterrupted_decideAndRecord fun decision => ?_
    split
    · exact completing_refuse h (.inl rfl)
        ⟨identifierSchema_reasonCode decision.reasonCode, by decide +kernel⟩
    · exact completing_runHandler h

theorem completing_resolveCall (h : Answerable context call) {authority : ResolvedAuthority}
    {handler : ToolHandler} {parsedCall : ToolCall} :
    Completing WellFormed (resolveCall kernel context call authority handler parsedCall) := by
  unfold resolveCall
  split
  · refine completing_bind uninterrupted_ask fun answer => ?_
    cases answer with
    | rejected =>
        exact completing_bind uninterrupted_reportProviderError fun _ =>
          completing_refuse h (.inr rfl) ⟨by decide +kernel, by decide +kernel⟩
    | fulfilled resolved => exact completing_decideCall h
  · exact completing_decideCall h

theorem completing_parseCall (h : Answerable context call) {authority : ResolvedAuthority}
    {handler : ToolHandler} :
    Completing WellFormed (parseCall kernel context call authority handler) := by
  unfold parseCall parseCallThen
  refine completing_bind uninterrupted_ask fun answer => ?_
  dsimp only
  split
  · exact completing_bind uninterrupted_reportProviderError fun _ =>
      completing_refuse h (.inr rfl) ⟨by decide +kernel, by decide +kernel⟩
  · exact completing_resolveCall h

theorem completing_findTool (h : Answerable context call) {authority : ResolvedAuthority}
    {tools : ToolRegistry} :
    Completing WellFormed (findTool kernel context call authority tools) := by
  unfold findTool findToolThen
  split
  · exact completing_toolUnavailable h
  split
  · exact completing_toolUnavailable h
  · unfold discoverTool discoverToolThen
    refine completing_bind uninterrupted_decideOnGrants fun discoverable => ?_
    split
    · exact completing_bind uninterrupted_recordAuthorizationDecision fun _ =>
        completing_toolUnavailable h
    · exact completing_parseCall h

/-- **A call that nothing interrupts comes back**, with a result that is well-formed. -/
theorem completes_invokeTool (h : Answerable context call) :
    Completing WellFormed (invokeTool kernel context call) := by
  unfold invokeTool
  refine completing_bind uninterrupted_throwIfAborted fun _ => ?_
  split
  · exact completing_refuse h (.inl rfl) ⟨by decide +kernel, by decide +kernel⟩
  · refine completing_bind uninterrupted_resolveTurnAuthority fun resolution => ?_
    cases resolution with
    | unavailable code detail =>
        exact completing_refuse h (.inl rfl) ⟨by decide +kernel, by decide +kernel⟩
    | resolved authority =>
        show Completing WellFormed (findCatalog kernel context call authority)
        unfold findCatalog findCatalogThen
        refine completing_bind uninterrupted_resolveToolRegistry fun outcome => ?_
        cases outcome with
        | error e =>
            exact completing_bind uninterrupted_throwIfAborted fun _ =>
              completing_bind uninterrupted_reportProviderError fun _ =>
                completing_refuse h (.inr rfl) ⟨by decide +kernel, by decide +kernel⟩
        | ok tools => exact completing_findTool h

end Kernel

end SharedOS.Kernel
