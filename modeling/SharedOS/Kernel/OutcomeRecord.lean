/-
SharedOS.Kernel.OutcomeRecord — the record about a call does not change the call.

A `tool.invoked` record is written after what it tells of. Whatever the sink answers to it, and
whatever the host's hook does about a failure, the call ends the same way. That is a statement about
two runs, so it is proved of the program: wherever it asks for such a record, every way on from there
has one end (`FixedFrom`).
-/
import SharedOS.Kernel.Frames

namespace SharedOS.Kernel

open SharedOS.Foundation SharedOS.Contracts SharedOS.Core

/-- The write of a `tool.invoked` record. -/
def AboutCall : KernelOp → Prop
  | .record event => event.type = .toolInvoked
  | _ => False

/-- The program writes nothing about the call. -/
abbrev Reserved {α : Type} (p : KernelM α) : Prop := Program.Uses (fun o => ¬ AboutCall o) p

theorem Quiet.reserved {α : Type} {p : KernelM α} (h : Quiet p) : Reserved p := by
  apply h.mono
  intro o ho habout
  cases o with
  | record event => exact ho
  | _ => exact habout

theorem Reserved.bind {α β : Type} {p : KernelM α} {f : α → KernelM β} (hp : Reserved p)
    (hf : ∀ a, Reserved (f a)) : Reserved (p >>= f) := Program.Uses.bind hp hf

theorem reserved_recordDecision {event : AuditEvent} (h : event.type ≠ .toolInvoked) :
    Reserved (recordDecision event) := by
  refine ⟨h, fun answer => ?_⟩
  cases answer <;> trivial

theorem reserved_stampAndRecord (context : AccessContext) (input : AuditEventInput)
    (h : input.type ≠ .toolInvoked) : Reserved (stampEvent context input >>= recordDecision) := by
  unfold stampEvent ask
  rw [Program.perform_bind, Program.ask_bind]
  refine ⟨id, fun id => ?_⟩
  exact reserved_recordDecision h

theorem authorityResolved_type (kernel : SharedOSKernel) (resolution : AuthorityResolution)
    (hostPolicy : Option PolicyResolution) :
    (authorityResolved kernel resolution hostPolicy).type = .authorityResolved := by
  cases resolution <;> rfl

/-- The call ends one way from wherever it is written about. -/
abbrev Steady (p : KernelM ToolResult) : Prop := Program.FixedFrom AboutCall p

section Rules

variable {α : Type} {f : α → KernelM ToolResult}

theorem steady_quiet_bind {p : KernelM α} (hp : Quiet p) (hf : ∀ a, Steady (f a)) :
    Steady (p >>= f) := hp.reserved.fixedFrom_bind hf

theorem steady_ask_bind {o : KernelOp} {g : o.Answer → KernelM ToolResult} (ho : ¬ AboutCall o)
    (hg : ∀ x, Steady (g x)) : Steady (ask o >>= g) := ⟨fun h => absurd h ho, hg⟩

/-- Writing about the call, and then ending with `r`. -/
theorem steady_recordOutcome_bind {kernel : SharedOSKernel} {event : AuditEvent}
    {g : Unit → KernelM ToolResult} {r : Except KernelError ToolResult}
    (hg : g () = Program.ofExcept r) : Steady (recordOutcome kernel event >>= g) := by
  unfold recordOutcome ask
  rw [Program.bind_assoc, Program.perform_bind]
  constructor
  · intro _
    refine ⟨r, fun answer => ?_⟩
    cases answer with
    | fulfilled =>
        show Program.EndsIn r (g ())
        rw [hg]
        exact Program.endsIn_ofExcept r
    | rejected =>
        dsimp only
        split
        · intro t r' hrun
          obtain ⟨_, u, _, hrest⟩ := Program.finishes_ask.mp hrun
          change Program.Finishes (g ()) u r' at hrest
          rw [hg] at hrest
          exact Program.endsIn_ofExcept r _ _ hrest
        · show Program.EndsIn r (g ())
          rw [hg]
          exact Program.endsIn_ofExcept r
  · intro answer
    have hend : Steady (g ()) := by
      rw [hg]
      exact Program.fixedFrom_ofExcept r
    cases answer with
    | fulfilled => exact hend
    | rejected =>
        dsimp only
        split
        · exact ⟨fun h => h.elim, fun _ => hend⟩
        · exact hend

section Call

variable [HostPlatform] {kernel : SharedOSKernel} {context : AccessContext} {call : ToolCall}
  {authority : ResolvedAuthority} {handler : ToolHandler} {parsedCall : ToolCall}

theorem steady_recordToolInvoked_bind {source : AuditSource} {callId tool : JsString}
    {outcome : AuditOutcome} {reasonCode : Option JsString} {detail : ToolResultAuditDetail}
    {g : Unit → KernelM ToolResult} {r : Except KernelError ToolResult}
    (hg : g () = Program.ofExcept r) :
    Steady (recordToolInvoked kernel context source callId tool outcome reasonCode detail >>= g) := by
  unfold recordToolInvoked
  rw [Program.bind_assoc]
  refine steady_ask_bind id fun hash => ?_
  rw [Program.bind_assoc]
  apply steady_quiet_bind (quiet_stampEvent _ _)
  intro event
  exact steady_recordOutcome_bind hg

theorem steady_refuse {status : ProtocolError → ToolOutcome} {code message : JsString}
    {detail : ToolResultAuditDetail} :
    Steady (refuse kernel context call status code message detail) :=
  steady_recordToolInvoked_bind (r := .ok _) rfl

theorem steady_recordResult {c : AuthorizedCall} (result : ToolResult) :
    Steady (ask (.dispatchCause c.parsedCall) >>= fun dispatchCause =>
      recordToolResult kernel c.context c.call result
        { c.detail with
          cause := if result.status = .succeeded then none else dispatchCause } >>= fun _ =>
      pure result) := by
  refine steady_ask_bind id fun cause => ?_
  exact steady_recordToolInvoked_bind (r := .ok result) rfl

theorem steady_interrupted {c : AuthorizedCall} {reasonCode : JsString} {e : KernelError} :
    Steady (((handlerPort kernel c).interrupted reasonCode >>= fun _ => raise e) >>= f) := by
  rw [Program.bind_assoc]
  exact steady_recordToolInvoked_bind (r := .error e) rfl

/-- What is done with a handler's answer, and then what comes after. -/
theorem steady_settlePort_bind {c : AuthorizedCall} {operation : ProviderErrorOperation}
    {answer : PortAnswer ToolResult} {g : ToolResult → KernelM ToolResult}
    (hg : ∀ result, Steady (g result)) :
    Steady (settlePort kernel { (handlerPort kernel c).handling with operation } answer >>=
      g) := by
  cases answer with
  | returned candidate => exact hg _
  | threwAuditUnavailable => exact steady_interrupted
  | threw =>
      show Steady ((ask .signalAborted >>= _) >>= _)
      rw [Program.bind_assoc]
      refine steady_ask_bind id fun aborted => ?_
      cases aborted with
      | true => exact steady_interrupted
      | false =>
          show Steady ((reportProviderError _ _ _ _ >>= fun _ => pure _) >>= _)
          rw [Program.bind_assoc]
          apply steady_quiet_bind (quiet_reportProviderError ..)
          intro _
          exact hg _

theorem steady_runHandler (c : AuthorizedCall) : Steady (runHandler kernel c) := by
  unfold runHandler
  rw [invokePort_eq, Program.bind_assoc]
  apply steady_quiet_bind quiet_throwIfAborted
  intro _
  rw [Program.bind_assoc]
  refine steady_ask_bind id fun answer => ?_
  exact steady_settlePort_bind steady_recordResult

/-! ## The gates -/

omit [HostPlatform] in
theorem reserved_recordAuthorizationDecision {request : CapabilityRequirement}
    {decision : AuthorizationDecision} {consume : Bool} {authorityHash operationId : Option JsString}
    {explanation : Option AuthorizationExplanation} :
    Reserved (recordAuthorizationDecision context request decision consume authorityHash operationId
      explanation) := by
  unfold recordAuthorizationDecision
  apply reserved_stampAndRecord
  exact nofun

theorem reserved_decideAndRecord {request : CapabilityRequirement} {consume : Bool}
    {operationId : Option JsString} :
    Reserved (decideAndRecord kernel context authority request consume operationId) := by
  unfold decideAndRecord
  apply (quiet_decideOnGrants ..).reserved.bind
  intro explained
  apply reserved_recordAuthorizationDecision.bind
  intro _
  trivial

theorem reserved_loadAuthority : Reserved (loadAuthority kernel context) := by
  unfold loadAuthority
  apply (quiet_resolveGrants context).reserved.bind
  intro resolved
  apply (quiet_loadHostPolicy kernel context).reserved.bind
  intro hostPolicy
  dsimp only
  rw [← Program.bind_assoc]
  apply Reserved.bind
  · apply reserved_stampAndRecord
    rw [authorityResolved_type]
    exact nofun
  · intro _
    trivial

theorem reserved_resolveTurnAuthority : Reserved (resolveTurnAuthority kernel context) := by
  unfold resolveTurnAuthority
  refine ⟨id, fun leased => ?_⟩
  cases leased with
  | some resolution => trivial
  | none => exact reserved_loadAuthority

theorem steady_decideCall {requirement : CapabilityRequirement} :
    Steady (decideCall kernel context call authority handler parsedCall requirement) := by
  unfold decideCall
  split
  · apply reserved_decideAndRecord.fixedFrom_bind
    intro crossing
    exact steady_refuse
  split
  · exact steady_refuse
  · apply reserved_decideAndRecord.fixedFrom_bind
    intro decision
    split
    · exact steady_refuse
    · exact steady_runHandler _

theorem steady_resolveCall :
    Steady (resolveCall kernel context call authority handler parsedCall) := by
  unfold resolveCall
  split
  · refine steady_ask_bind id fun answer => ?_
    cases answer with
    | rejected => exact steady_quiet_bind (quiet_reportProviderError ..) fun _ => steady_refuse
    | fulfilled resolved => exact steady_decideCall
  · exact steady_decideCall

theorem steady_parseCallThen {rest : ToolCall → KernelM ToolResult}
    (hrest : ∀ parsedCall, Steady (rest parsedCall)) :
    Steady (parseCallThen kernel context call handler rest) := by
  unfold parseCallThen
  refine steady_ask_bind id fun answer => ?_
  dsimp only
  split
  · exact steady_quiet_bind (quiet_reportProviderError ..) fun _ => steady_refuse
  · exact hrest _

theorem steady_discoverToolThen {rest : KernelM ToolResult} (hrest : Steady rest) :
    Steady (discoverToolThen kernel context call authority handler rest) := by
  unfold discoverToolThen
  dsimp only
  apply steady_quiet_bind (quiet_decideOnGrants ..)
  intro discoverable
  split
  · exact reserved_recordAuthorizationDecision.fixedFrom_bind fun _ => steady_refuse
  · exact hrest

theorem steady_findToolThen {tools : ToolRegistry} {rest : ToolHandler → KernelM ToolResult}
    (hrest : ∀ handler, Steady (rest handler)) :
    Steady (findToolThen kernel context call tools rest) := by
  unfold findToolThen
  split
  · exact steady_refuse
  split
  · exact steady_refuse
  · exact hrest _

theorem steady_findCatalogThen {rest : ToolRegistry → KernelM ToolResult}
    (hrest : ∀ tools, Steady (rest tools)) :
    Steady (findCatalogThen kernel context call rest) := by
  unfold findCatalogThen
  apply steady_quiet_bind (quiet_resolveToolRegistry kernel context)
  intro outcome
  cases outcome with
  | error e =>
      apply steady_quiet_bind quiet_throwIfAborted
      intro _
      exact steady_quiet_bind (quiet_reportProviderError ..) fun _ => steady_refuse
  | ok tools => exact hrest tools

/-- **A call ends one way from the record about it on**, whatever becomes of the record. -/
theorem steady_invokeTool : Steady (invokeTool kernel context call) := by
  unfold invokeTool
  apply steady_quiet_bind quiet_throwIfAborted
  intro _
  split
  · exact steady_refuse
  · apply reserved_resolveTurnAuthority.fixedFrom_bind
    intro resolution
    cases resolution with
    | unavailable code detail => exact steady_refuse
    | resolved authority =>
        apply steady_findCatalogThen
        intro tools
        apply steady_findToolThen
        intro handler
        apply steady_discoverToolThen
        exact steady_parseCallThen fun parsedCall => steady_resolveCall

end Call

end Rules

end SharedOS.Kernel
