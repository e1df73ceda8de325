/-
SharedOS.Kernel.HookOrder — a call's hooks come in one order, each at most once.

The arguments are parsed, the requirement is resolved, the decision that allows the call is written,
and the handler is entered. These are the phases of a call (`hookPhase`), with two readings between
the second and the third of what the resolver may have written to; everything else a call asks is
free. So one invocation resolves one requirement, is allowed on one, and enters one handler.
-/
import SharedOS.Foundation.Interpreter
import SharedOS.Kernel.OutcomeRecord

namespace SharedOS.Kernel

open SharedOS.Foundation SharedOS.Contracts SharedOS.Core

/-- The record of a decision that allows. -/
def AllowedDecision (event : AuditEvent) : Prop :=
  event.type = .authorizationChecked ∧ event.outcome = .allowed

instance (event : AuditEvent) : Decidable (AllowedDecision event) :=
  inferInstanceAs (Decidable (_ ∧ _))

/-- Which phase of a call an operation is. -/
def hookPhase : KernelOp → ℕ
  | .parseArguments .. => 1
  | .resolveRequirement .. => 2
  | .heldContext .resolved _ => 3
  | .heldRequirement .decided _ => 4
  | .record event => if AllowedDecision event then 5 else 0
  | .invokeHandler .. => 6
  | _ => 0

/-- The program is no phase of a call. -/
abbrev Free {α : Type} (p : KernelM α) : Prop := Program.Uses (fun o => hookPhase o = 0) p

theorem hookPhase_of_plain {o : KernelOp} (h : Plain o) : hookPhase o = 0 := by
  cases o <;> first | rfl | exact h.elim

theorem free_of_plain {α : Type} {p : KernelM α} (h : Program.Uses Plain p) : Free p :=
  h.mono fun _ => hookPhase_of_plain

theorem hookPhase_record {event : AuditEvent} (h : ¬ AllowedDecision event) :
    hookPhase (.record event) = 0 := if_neg h

theorem hookPhase_record_cases (event : AuditEvent) :
    hookPhase (.record event) = 0 ∨ hookPhase (.record event) = 5 := by
  by_cases h : AllowedDecision event
  · exact .inr (if_pos h)
  · exact .inl (if_neg h)

/-- The second phase is the resolution of the requirement. -/
theorem resolves_of_hookPhase {o : KernelOp} (h : hookPhase o = 2) :
    ∃ handler context call, o = .resolveRequirement handler context call := by
  cases o with
  | resolveRequirement handler context call => exact ⟨handler, context, call, rfl⟩
  | record event => rcases hookPhase_record_cases event with hphase | hphase <;> omega
  | heldContext since was => cases since <;> cases h
  | heldRequirement since was => cases since <;> cases h
  | _ => cases h

/-- The last is the entry of the handler. -/
theorem enters_of_hookPhase {o : KernelOp} (h : hookPhase o = 6) :
    ∃ handler context call, o = .invokeHandler handler context call := by
  cases o with
  | invokeHandler handler context call => exact ⟨handler, context, call, rfl⟩
  | record event => rcases hookPhase_record_cases event with hphase | hphase <;> omega
  | heldContext since was => cases since <;> cases h
  | heldRequirement since was => cases since <;> cases h
  | _ => cases h

/-! ## The writers -/

section Writers

variable {kernel : SharedOSKernel} {context : AccessContext} {event : AuditEvent}

theorem free_recordDecision (h : ¬ AllowedDecision event) : Free (recordDecision event) := by
  refine ⟨hookPhase_record h, fun answer => ?_⟩
  cases answer with
  | fulfilled => exact Program.uses_done _
  | rejected => exact Program.uses_throw _

theorem free_recordOutcome (h : ¬ AllowedDecision event) : Free (recordOutcome kernel event) := by
  refine ⟨hookPhase_record h, fun answer => ?_⟩
  cases answer with
  | fulfilled => exact Program.uses_done _
  | rejected =>
      show Free (if kernel.reportsAuditErrors then ask (.onAuditError event) else pure ())
      split
      · exact ⟨rfl, fun _ => Program.uses_done _⟩
      · exact Program.uses_done _

/-- A decision's record is at most the phase of one that allows. -/
theorem phases_recordDecision : Program.InPhases hookPhase 4 (recordDecision event) := by
  rcases hookPhase_record_cases event with hphase | hphase
  · refine .inl ⟨hphase, fun answer => ?_⟩
    cases answer <;> trivial
  · refine .inr ⟨by omega, fun answer => ?_⟩
    cases answer <;> trivial

theorem within_recordDecision :
    Program.Uses (fun o => hookPhase o ≤ 5) (recordDecision event) := by
  refine ⟨?_, fun answer => ?_⟩
  · rcases hookPhase_record_cases event with hphase | hphase <;> omega
  · cases answer <;> trivial

theorem free_stampAndRecord {input : AuditEventInput} (h : input.type ≠ .authorizationChecked) :
    Free (stampEvent context input >>= recordDecision) := by
  unfold stampEvent ask
  rw [Program.perform_bind, Program.ask_bind]
  exact ⟨rfl, fun id => free_recordDecision fun hallowed => h hallowed.1⟩

end Writers

section Call

variable [HostPlatform] {kernel : SharedOSKernel} {context : AccessContext} {call : ToolCall}
  {authority : ResolvedAuthority} {handler : ToolHandler} {parsedCall : ToolCall}

theorem free_recordToolInvoked {source : AuditSource} {callId tool : JsString}
    {outcome : AuditOutcome} {reasonCode : Option JsString} {detail : ToolResultAuditDetail} :
    Free (recordToolInvoked kernel context source callId tool outcome reasonCode detail) := by
  unfold recordToolInvoked stampEvent ask
  refine ⟨rfl, fun hash => ⟨rfl, fun id => free_recordOutcome ?_⟩⟩
  exact fun hallowed => (by cases hallowed.1)

theorem free_refuse {status : ProtocolError → ToolOutcome} {code message : JsString}
    {detail : ToolResultAuditDetail} :
    Free (refuse kernel context call status code message detail) :=
  free_recordToolInvoked.bind fun _ => Program.uses_done _

omit [HostPlatform] in
theorem free_reportCallError {kind : ProviderErrorKind} {reasonCode : JsString} :
    Free (reportCallError kernel context call kind reasonCode) :=
  free_of_plain (plain_reportProviderError ..)

omit [HostPlatform] in
/-- A refusal to discover is written, and allows nothing. -/
theorem free_recordRefusal {request : CapabilityRequirement} {decision : AuthorizationDecision}
    {consume : Bool} {authorityHash operationId : Option JsString}
    {explanation : Option AuthorizationExplanation} (h : decision.allowed = false) :
    Free (recordAuthorizationDecision context request decision consume authorityHash operationId
      explanation) := by
  unfold recordAuthorizationDecision stampEvent ask
  refine ⟨rfl, fun id => free_recordDecision fun hallowed => ?_⟩
  have houtcome : (authorizationChecked request decision consume authorityHash operationId
      explanation).outcome = .allowed := hallowed.2
  unfold authorizationChecked at houtcome
  rw [h] at houtcome
  cases houtcome

omit [HostPlatform] in
/-- The record of a decision is the phase of one that allows, at most. -/
theorem phases_recordAuthorizationDecision_bind {β : Type} {request : CapabilityRequirement}
    {decision : AuthorizationDecision} {consume : Bool} {authorityHash operationId : Option JsString}
    {explanation : Option AuthorizationExplanation} {f : Unit → KernelM β}
    (hf : Program.InPhases hookPhase 5 (f ())) :
    Program.InPhases hookPhase 4
      (recordAuthorizationDecision context request decision consume authorityHash operationId
        explanation >>= f) := by
  unfold recordAuthorizationDecision stampEvent ask
  refine .inl ⟨rfl, fun id => ?_⟩
  exact phases_recordDecision.bind within_recordDecision (by omega) fun _ => hf

/-- **The decision** is that phase at most. -/
theorem phases_decideAndRecord_bind {β : Type} {request : CapabilityRequirement} {consume : Bool}
    {operationId : Option JsString} {f : AuthorizationDecision → KernelM β}
    (hf : ∀ decision, Program.InPhases hookPhase 5 (f decision)) :
    Program.InPhases hookPhase 4
      (decideAndRecord kernel context authority request consume operationId >>= f) := by
  unfold decideAndRecord
  rw [Program.bind_assoc]
  apply (free_of_plain (plain_decideOnGrants ..)).inPhases_bind
  intro explained
  rw [Program.bind_assoc]
  exact phases_recordAuthorizationDecision_bind (hf _)

theorem free_recordResult {c : AuthorizedCall} (result : ToolResult) :
    Free (ask (.dispatchCause c.parsedCall) >>= fun dispatchCause =>
      recordToolResult kernel c.context c.call result
        { c.detail with
          cause := if result.status = .succeeded then none else dispatchCause } >>= fun _ =>
      pure result) :=
  ⟨rfl, fun _ => free_recordToolInvoked.bind fun _ => Program.uses_done _⟩

theorem free_settlePort {c : AuthorizedCall} {operation : ProviderErrorOperation}
    {answer : PortAnswer ToolResult} :
    Free (settlePort kernel { (handlerPort kernel c).handling with operation } answer) := by
  cases answer with
  | returned candidate => exact Program.uses_done _
  | threwAuditUnavailable => exact free_recordToolInvoked.bind fun _ => Program.uses_throw _
  | threw =>
      refine ⟨rfl, fun aborted => ?_⟩
      cases aborted with
      | true => exact free_recordToolInvoked.bind fun _ => Program.uses_throw _
      | false =>
          exact (free_of_plain (plain_reportProviderError ..)).bind fun _ => Program.uses_done _

/-- The handler is entered last, and nothing after it is a phase. -/
theorem phases_runHandler (c : AuthorizedCall) :
    Program.InPhases hookPhase 5 (runHandler kernel c) := by
  unfold runHandler
  rw [invokePort_eq, Program.bind_assoc]
  apply (free_of_plain plain_throwIfAborted).inPhases_bind
  intro _
  rw [Program.bind_assoc]
  refine Program.inPhases_perform_bind.mpr (.inr ⟨show 5 < 6 by omega, fun answer => ?_⟩)
  exact (free_settlePort.bind free_recordResult).inPhases

theorem phases_decideCall {requirement : CapabilityRequirement} :
    Program.InPhases hookPhase 4
      (decideCall kernel context call authority handler parsedCall requirement) := by
  unfold decideCall
  split
  · exact phases_decideAndRecord_bind fun crossing => free_refuse.inPhases
  split
  · exact free_refuse.inPhases
  · apply phases_decideAndRecord_bind
    intro decision
    split
    · exact free_refuse.inPhases
    · exact phases_runHandler _

theorem phases_resolveCall :
    Program.InPhases hookPhase 1
      (resolveCall kernel context call authority handler parsedCall) := by
  unfold resolveCall
  split
  · refine Program.inPhases_perform_bind.mpr (.inr ⟨show 1 < 2 by omega, fun answer => ?_⟩)
    cases answer with
    | rejected => exact (free_reportCallError.bind fun _ => free_refuse).inPhases
    | fulfilled resolved => exact phases_decideCall.mono (show 2 ≤ 4 by omega)
  · exact phases_decideCall.mono (by omega)

theorem phases_parseCallThen {rest : ToolCall → KernelM ToolResult}
    (hrest : ∀ parsedCall, Program.InPhases hookPhase 1 (rest parsedCall)) :
    Program.InPhases hookPhase 0 (parseCallThen kernel context call handler rest) := by
  unfold parseCallThen
  refine Program.inPhases_perform_bind.mpr (.inr ⟨show 0 < 1 by omega, fun answer => ?_⟩)
  dsimp only
  split
  · exact (free_reportCallError.bind fun _ => free_refuse).inPhases
  · exact hrest _

theorem phases_discoverToolThen {rest : KernelM ToolResult}
    (hrest : Program.InPhases hookPhase 0 rest) :
    Program.InPhases hookPhase 0 (discoverToolThen kernel context call authority handler rest) := by
  unfold discoverToolThen
  dsimp only
  apply (free_of_plain (plain_decideOnGrants ..)).inPhases_bind
  intro discoverable
  split
  · next hrefused =>
      apply Program.Uses.inPhases
      exact (free_recordRefusal (by simpa using hrefused)).bind fun _ => free_refuse
  · exact hrest

theorem phases_findToolThen {tools : ToolRegistry} {rest : ToolHandler → KernelM ToolResult}
    (hrest : ∀ handler, Program.InPhases hookPhase 0 (rest handler)) :
    Program.InPhases hookPhase 0 (findToolThen kernel context call tools rest) := by
  unfold findToolThen
  split
  · exact free_refuse.inPhases
  split
  · exact free_refuse.inPhases
  · exact hrest _

theorem phases_findCatalogThen {rest : ToolRegistry → KernelM ToolResult}
    (hrest : ∀ tools, Program.InPhases hookPhase 0 (rest tools)) :
    Program.InPhases hookPhase 0 (findCatalogThen kernel context call rest) := by
  unfold findCatalogThen
  apply (free_of_plain (plain_resolveToolRegistry kernel context)).inPhases_bind
  intro outcome
  cases outcome with
  | error e =>
      apply Program.Uses.inPhases
      exact (free_of_plain plain_throwIfAborted).bind fun _ =>
        free_reportCallError.bind fun _ => free_refuse
  | ok tools => exact hrest tools

theorem free_loadAuthority : Free (loadAuthority kernel context) := by
  unfold loadAuthority
  apply (free_of_plain (plain_resolveGrants context)).bind
  intro resolved
  apply (free_of_plain (plain_loadHostPolicy kernel context)).bind
  intro hostPolicy
  dsimp only
  rw [← Program.bind_assoc]
  apply Program.Uses.bind
  · apply free_stampAndRecord
    rw [authorityResolved_type]
    exact fun h => (by cases h)
  · exact fun _ => Program.uses_done _

theorem free_resolveTurnAuthority : Free (resolveTurnAuthority kernel context) := by
  unfold resolveTurnAuthority
  refine ⟨rfl, fun leased => ?_⟩
  cases leased with
  | some resolution => exact Program.uses_done _
  | none => exact free_loadAuthority

/-- **The hooks of a call come in order, each at most once.** -/
theorem phases_invokeTool :
    Program.InPhases hookPhase 0 (invokeTool kernel context call) := by
  unfold invokeTool
  apply (free_of_plain plain_throwIfAborted).inPhases_bind
  intro _
  split
  · exact free_refuse.inPhases
  · apply free_resolveTurnAuthority.inPhases_bind
    intro resolution
    cases resolution with
    | unavailable code detail => exact free_refuse.inPhases
    | resolved authority =>
        apply phases_findCatalogThen
        intro tools
        apply phases_findToolThen
        intro handler
        apply phases_discoverToolThen
        exact phases_parseCallThen fun parsedCall => phases_resolveCall

end Call

end SharedOS.Kernel
