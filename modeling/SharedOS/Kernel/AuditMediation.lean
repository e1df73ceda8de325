/-
SharedOS.Kernel.AuditMediation — what the audit trail says of a mediated tool call.

A run of `invokeTool` is a trace of everything it asked and every answer it got. Three results about
every trace. When the handler is entered, the sink has accepted the decision that allowed exactly
this call, and every gate has been passed. A record before the effect that fails refuses the call.
And once the handler was entered the trail gets exactly one `tool.invoked` record, whose own fate
changes nothing. Beside the trail stands what the ending tells the caller of the effect (`Told`).

The proofs go forward through the gates with `wp`. Up to the handler every record was accepted and
nothing is written about the call (`Clear`). From the handler on, exactly one exit writes. The rules
are about any guard on entered handlers (`GuardsHandlers`), and `Kernel.LiveMediation` goes through
the same gates with them for a call whose tool's code writes into the objects it shares.
-/
import SharedOS.Core.Reach
import SharedOS.Kernel.OutcomeRecord

namespace SharedOS.Kernel

open SharedOS.Foundation SharedOS.Contracts SharedOS.Core

/-! ## Reading a trace -/

/-- The record of an event, with what the sink answered. -/
def recordOf : KernelEvent → Option (AuditEvent × Settled Unit)
  | ⟨.record event, answer⟩ => some (event, answer)
  | _ => none

/-- What was written to the sink, with what the sink answered. -/
def records (t : KernelTrace) : List (AuditEvent × Settled Unit) := t.filterMap recordOf

/-- The `tool.invoked` records. -/
def invokedRecords (t : KernelTrace) : List (AuditEvent × Settled Unit) :=
  (records t).filter fun r => r.1.type = .toolInvoked

/-- The handler an event enters. -/
def entryOf : KernelEvent → Option ToolHandler
  | ⟨.invokeHandler handler _ _, _⟩ => some handler
  | _ => none

/-- The handlers entered. -/
def entries (t : KernelTrace) : List ToolHandler := t.filterMap entryOf

@[simp] theorem records_append (t u : KernelTrace) : records (t ++ u) = records t ++ records u :=
  List.filterMap_append

@[simp] theorem invokedRecords_append (t u : KernelTrace) :
    invokedRecords (t ++ u) = invokedRecords t ++ invokedRecords u := by
  unfold invokedRecords
  rw [records_append, List.filter_append]

@[simp] theorem entries_append (t u : KernelTrace) : entries (t ++ u) = entries t ++ entries u :=
  List.filterMap_append

theorem records_silent {t : KernelTrace} (h : ∀ e ∈ t, Silent e.1) : records t = [] := by
  apply List.filterMap_eq_nil_iff.mpr
  intro e he
  obtain ⟨o, x⟩ := e
  cases o with
  | record event => exact (h _ he).elim
  | _ => rfl

theorem entries_silent {t : KernelTrace} (h : ∀ e ∈ t, Silent e.1) : entries t = [] := by
  apply List.filterMap_eq_nil_iff.mpr
  intro e he
  obtain ⟨o, x⟩ := e
  cases o with
  | invokeHandler handler context call => exact (h _ he).elim
  | _ => rfl

theorem mem_entries {t : KernelTrace} {handler : ToolHandler} : handler ∈ entries t ↔
    ∃ context parsedCall answer, ⟨.invokeHandler handler context parsedCall, answer⟩ ∈ t := by
  unfold entries
  rw [List.mem_filterMap]
  constructor
  · rintro ⟨⟨o, x⟩, hmem, hentry⟩
    cases o with
    | invokeHandler handler' context parsedCall =>
        cases Option.some.inj hentry
        exact ⟨context, parsedCall, x, hmem⟩
    | _ => cases hentry
  · rintro ⟨context, parsedCall, answer, hmem⟩
    exact ⟨_, hmem, rfl⟩

/-- Every record was accepted, nothing is written about the call, and no handler was entered. -/
structure Clear (t : KernelTrace) : Prop where
  accepted : ∀ r ∈ records t, r.2 = .fulfilled ()
  unwritten : invokedRecords t = []
  unentered : entries t = []

theorem Clear.silent {t u : KernelTrace} (h : Clear t) (hu : ∀ e ∈ u, Silent e.1) :
    Clear (t ++ u) := by
  constructor
  · rw [records_append, records_silent hu, List.append_nil]
    exact h.accepted
  · rw [invokedRecords_append, h.unwritten]
    unfold invokedRecords
    rw [records_silent hu]
    rfl
  · rw [entries_append, entries_silent hu, List.append_nil]
    exact h.unentered

theorem Clear.asked {t : KernelTrace} {o : KernelOp} (h : Clear t) (ho : Silent o) (x : o.Answer) :
    Clear (t ++ [⟨o, x⟩]) := by
  apply h.silent
  intro e he
  rw [List.mem_singleton.mp he]
  exact ho

/-- A decision's record that was accepted. -/
theorem Clear.record {t : KernelTrace} {event : AuditEvent} (h : Clear t)
    (htype : event.type ≠ .toolInvoked) : Clear (t ++ [⟨.record event, Settled.fulfilled ()⟩]) := by
  constructor
  · intro r hr
    rw [records_append] at hr
    rcases List.mem_append.mp hr with hr | hr
    · exact h.accepted r hr
    · rw [List.mem_singleton.mp hr]
  · rw [invokedRecords_append, h.unwritten]
    simp [invokedRecords, records, recordOf, htype]
  · rw [entries_append, h.unentered]
    rfl

/-! ## What the trail says -/

/-- Every record so far was accepted, and the call is not written about yet. -/
structure Unwritten (t : KernelTrace) : Prop where
  accepted : ∀ r ∈ records t, r.2 = .fulfilled ()
  unwritten : invokedRecords t = []

/-- The one record about the call is written. -/
structure Written (t : KernelTrace) (outcome : AuditOutcome) : Prop where
  undisturbed : ∀ event, (event, Settled.rejected) ∈ records t → event.type = .toolInvoked
  written : ∃ event answer, invokedRecords t = [(event, answer)] ∧ event.outcome = outcome

theorem Clear.toUnwritten {t : KernelTrace} (h : Clear t) : Unwritten t :=
  ⟨h.accepted, h.unwritten⟩

/-- An operation that does not write. -/
theorem records_snoc {t : KernelTrace} {e : KernelEvent} (h : recordOf e = none) :
    records (t ++ [e]) = records t := by
  rw [records_append]
  simp [records, h]

theorem invokedRecords_snoc {t : KernelTrace} {e : KernelEvent} (h : recordOf e = none) :
    invokedRecords (t ++ [e]) = invokedRecords t := by
  unfold invokedRecords
  rw [records_snoc h]

theorem Unwritten.snoc {t : KernelTrace} {e : KernelEvent} (h : Unwritten t)
    (he : recordOf e = none) : Unwritten (t ++ [e]) := by
  constructor
  · rw [records_snoc he]
    exact h.accepted
  · rw [invokedRecords_snoc he]
    exact h.unwritten

theorem Written.snoc {t : KernelTrace} {e : KernelEvent} {outcome : AuditOutcome}
    (h : Written t outcome) (he : recordOf e = none) : Written (t ++ [e]) outcome := by
  constructor
  · rw [records_snoc he]
    exact h.undisturbed
  · rw [invokedRecords_snoc he]
    exact h.written

theorem Unwritten.write {t : KernelTrace} {event : AuditEvent} (h : Unwritten t)
    (htype : event.type = .toolInvoked) (answer : Settled Unit) :
    Written (t ++ [⟨.record event, answer⟩]) event.outcome := by
  constructor
  · intro other hother
    rw [records_append] at hother
    rcases List.mem_append.mp hother with hold | hnew
    · exact absurd (h.accepted _ hold) nofun
    · have heq := List.mem_singleton.mp hnew
      rw [(Prod.mk.inj heq).1]
      exact htype
  · refine ⟨event, answer, ?_, rfl⟩
    rw [invokedRecords_append, h.unwritten]
    simp [invokedRecords, records, recordOf, htype]

/-- The status a whole run is recorded under. -/
def endingOutcome : Except KernelError ToolResult → AuditOutcome
  | .ok result => statusOutcome result.status
  | .error _ => .interrupted

/-- A whole run, as the trail has it. -/
structure Mediated (t : KernelTrace) (r : Except KernelError ToolResult) : Prop where
  /-- A record before the effect that failed has refused the call. -/
  refused : ∀ event, (event, Settled.rejected) ∈ records t → event.type ≠ .toolInvoked →
    entries t = [] ∧ r = .error (.auditUnavailable .none)
  /-- An entered handler has exactly one record, under what the call came to. -/
  recorded : entries t ≠ [] → ∃ event answer, invokedRecords t = [(event, answer)] ∧
    event.outcome = endingOutcome r

theorem Written.mediated {t : KernelTrace} {r : Except KernelError ToolResult}
    (h : Written t (endingOutcome r)) : Mediated t r where
  refused event hevent htype := absurd (h.undisturbed event hevent) htype
  recorded _ := h.written

theorem Clear.mediated {t : KernelTrace} (h : Clear t) (r : Except KernelError ToolResult) :
    Mediated t r where
  refused _ hevent _ := absurd (h.accepted _ hevent) nofun
  recorded hentered := absurd h.unentered hentered

/-- The requirement a call is decided on: what the handler's resolver answered, or the declared
one. -/
def RequirementOf (handler : ToolHandler) (context : AccessContext) (parsedCall : ToolCall)
    (t : KernelTrace) (requirement : CapabilityRequirement) : Prop :=
  if handler.resolvesRequirement then
    ∃ resolved, ⟨.resolveRequirement handler context parsedCall, Settled.fulfilled resolved⟩ ∈ t ∧
      requirement = resolved.getD handler.definition.requiredCapability
  else requirement = handler.definition.requiredCapability

/-- The requirement stays inside what the tool declared. -/
structure WithinDeclared (definition : ToolDefinition) (requirement : CapabilityRequirement)
    (context : AccessContext) : Prop where
  action : requirement.action = definition.requiredCapability.action
  «namespace» : requirement.resource.namespace = definition.requiredCapability.resource.namespace
  owner : definition.requiredCapability.resource.owner.getD context.owner =
    requirement.resource.owner.getD context.owner
  path : definition.requiredCapability.resource.path <+: requirement.resource.path

section Spec

variable [HostPlatform]

/-- The handler is the one the call's own catalogue has under the name. -/
def Catalogued (kernel : SharedOSKernel) (context : AccessContext) (call : ToolCall)
    (handler : ToolHandler) (t : KernelTrace) : Prop :=
  ∃ t₁ t₂ t₃ tools, t = t₁ ++ t₂ ++ t₃ ∧
    Program.Finishes (resolveToolRegistry kernel context) t₂ (.ok (.ok tools)) ∧
    tools.get call.tool = some handler

/-- `canDiscover` ran on the tool's declared capability, and allowed it. -/
def Discovered (kernel : SharedOSKernel) (context : AccessContext) (authority : ResolvedAuthority)
    (handler : ToolHandler) (t : KernelTrace) : Prop :=
  ∃ t₁ t₂ t₃ explained, t = t₁ ++ t₂ ++ t₃ ∧
    Program.Finishes (canDiscover kernel.authorizer authority
      handler.definition.requiredCapability (some context.now)) t₂ (.ok explained) ∧
    explained.decision.allowed = true

/-- The gates before the requirement. -/
structure Offered (kernel : SharedOSKernel) (context : AccessContext) (call : ToolCall)
    (authority : ResolvedAuthority) (handler : ToolHandler) (t : KernelTrace) : Prop where
  trace : call.traceId = context.traceId
  catalogued : Catalogued kernel context call handler t
  enabled : handler.definition.namespace ∈ context.enabledToolNamespaces
  discovered : Discovered kernel context authority handler t

/-- The sink has accepted the decision that allows this call on this requirement. -/
def Recorded (call : ToolCall) (authority : ResolvedAuthority) (requirement : CapabilityRequirement)
    (t : KernelTrace) : Prop :=
  ∃ event, (event, Settled.fulfilled ()) ∈ records t ∧ event.type = .authorizationChecked ∧
    event.outcome = .allowed ∧ event.resource = some requirement.resource ∧
    event.action = some requirement.action ∧ event.operationId = some call.id ∧
    event.authorityHash = some authority.snapshot.hash

/-- Every gate has been passed. -/
def Decided (kernel : SharedOSKernel) (context : AccessContext) (call : ToolCall)
    (handler : ToolHandler) (parsedCall : ToolCall) (t : KernelTrace) : Prop :=
  ∃ authority requirement, Offered kernel context call authority handler t ∧
    RequirementOf handler context parsedCall t requirement ∧
    Recorded call authority requirement t ∧
    WithinDeclared handler.definition requirement context ∧
    requirement.resource.owner.getD context.owner = context.owner

/-- **What has happened when a handler is entered.** -/
structure Authorized (kernel : SharedOSKernel) (context : AccessContext) (call : ToolCall)
    (handler : ToolHandler) (parsedCall : ToolCall) (t : KernelTrace) : Prop where
  clear : Clear t
  decided : Decided kernel context call handler parsedCall t
  /-- The signal was read last of all, and had not fired. -/
  unaborted : t.getLast? = some ⟨.signalAborted, false⟩

/-- The result is what the handler answered. -/
def HandlerAnswered (call : ToolCall) (result : ToolResult) (t : KernelTrace) : Prop :=
  ∃ handler context parsedCall candidate,
    ⟨.invokeHandler handler context parsedCall, PortAnswer.returned (some candidate)⟩ ∈ t ∧
      acceptToolResult call candidate = some result

/-- What a caller may conclude from how a call ended. An outage that says it had no effect says so
truly. A denial is the kernel's own and came before the handler, or the handler's. -/
structure Told (call : ToolCall) (t : KernelTrace) (r : Except KernelError ToolResult) : Prop where
  outage : r = .error (.auditUnavailable .none) → entries t = []
  denied : ∀ result, r = .ok result → result.status = .denied → entries t ≠ [] →
    HandlerAnswered call result t

/-- A whole run, in the trail and to its caller. -/
structure Accounted (call : ToolCall) (t : KernelTrace) (r : Except KernelError ToolResult) :
    Prop where
  mediated : Mediated t r
  told : Told call t r

theorem told_of_unentered {call : ToolCall} {t : KernelTrace} (h : entries t = [])
    (r : Except KernelError ToolResult) : Told call t r where
  outage _ := h
  denied _ _ _ hentered := absurd h hentered

/-- The operation enters no handler. -/
def Unentering : KernelOp → Prop
  | .invokeHandler .. => False
  | _ => True

/-- A guard of handlers alone. -/
class GuardsHandlers (A : KernelTrace → KernelOp → Prop) : Prop where
  other : ∀ {t o}, Unentering o → A t o

/-- What each operation asked has behind it. -/
def Guarded (kernel : SharedOSKernel) (context : AccessContext) (call : ToolCall)
    (t : KernelTrace) : KernelOp → Prop
  | .invokeHandler handler context' parsedCall =>
    context' = context ∧ Authorized kernel context call handler parsedCall t
  | _ => True

section Frame

variable {kernel : SharedOSKernel} {context : AccessContext} {call : ToolCall}
  {authority : ResolvedAuthority} {handler : ToolHandler} {parsedCall : ToolCall}
  {requirement : CapabilityRequirement} {t : KernelTrace}

theorem Discovered.append (h : Discovered kernel context authority handler t) (u : KernelTrace) :
    Discovered kernel context authority handler (t ++ u) := by
  obtain ⟨t₁, t₂, t₃, explained, rfl, hrun, hallowed⟩ := h
  exact ⟨t₁, t₂, t₃ ++ u, explained, by simp, hrun, hallowed⟩

omit [HostPlatform] in
theorem Recorded.append (h : Recorded call authority requirement t) (u : KernelTrace) :
    Recorded call authority requirement (t ++ u) := by
  obtain ⟨event, hmem, hevent⟩ := h
  refine ⟨event, ?_, hevent⟩
  rw [records_append]
  exact List.mem_append_left _ hmem

theorem Catalogued.append (h : Catalogued kernel context call handler t) (u : KernelTrace) :
    Catalogued kernel context call handler (t ++ u) := by
  obtain ⟨t₁, t₂, t₃, tools, rfl, hrun, hget⟩ := h
  exact ⟨t₁, t₂, t₃ ++ u, tools, by simp, hrun, hget⟩

theorem Offered.append (h : Offered kernel context call authority handler t) (u : KernelTrace) :
    Offered kernel context call authority handler (t ++ u) :=
  { h with catalogued := h.catalogued.append u, discovered := h.discovered.append u }

omit [HostPlatform] in
theorem RequirementOf.append (h : RequirementOf handler context parsedCall t requirement)
    (u : KernelTrace) : RequirementOf handler context parsedCall (t ++ u) requirement := by
  unfold RequirementOf at h ⊢
  split
  · next hresolves =>
      rw [if_pos hresolves] at h
      obtain ⟨resolved, hmem, heq⟩ := h
      exact ⟨resolved, List.mem_append_left u hmem, heq⟩
  · next hresolves =>
      rw [if_neg hresolves] at h
      exact h

theorem Decided.append (h : Decided kernel context call handler parsedCall t) (u : KernelTrace) :
    Decided kernel context call handler parsedCall (t ++ u) := by
  obtain ⟨authority, requirement, hoffered, hrequirement, hrecorded, hbounds⟩ := h
  exact ⟨authority, requirement, hoffered.append u, hrequirement.append u, hrecorded.append u,
    hbounds⟩

instance : GuardsHandlers (Guarded kernel context call) where
  other {_ o} h := by
    cases o with
    | invokeHandler => exact h.elim
    | _ => trivial

omit [HostPlatform] in
theorem unentering_of_silent {o : KernelOp} (h : Silent o) : Unentering o := by
  cases o with
  | invokeHandler => exact h.elim
  | _ => trivial

end Frame

/-! ## Rules for the parts -/

section Rules

variable {kernel : SharedOSKernel} {context : AccessContext} {call : ToolCall} {α : Type}
  {A : KernelTrace → KernelOp → Prop} [GuardsHandlers A]

omit [HostPlatform] [GuardsHandlers A] in
theorem wp_ask_bind {o : KernelOp}
    {f : o.Answer → KernelM α} {Q : KernelTrace → Except KernelError α → Prop} {h : KernelTrace} :
    Program.wp A (ask o >>= f) Q h ↔ A h o ∧ ∀ x, Program.wp A (f x) Q (h ++ [⟨o, x⟩]) := Iff.rfl

/-- A quiet part first: it leaves the trail clear, and a throw of its own ends the call. -/
theorem wp_quiet_bind {p : KernelM α} {f : α → KernelM ToolResult} {h : KernelTrace} (hp : Quiet p)
    (hclear : Clear h)
    (hnext : ∀ t a, Program.Finishes p t (.ok a) → Clear (h ++ t) →
      Program.wp A (f a) (Accounted call) (h ++ t)) :
    Program.wp A (p >>= f) (Accounted call) h := by
  apply Program.wp_bind.mpr
  apply Program.wp_of_runs
  · intro t o hasks
    exact GuardsHandlers.other (unentering_of_silent (hp.asks hasks))
  · intro t r hrun
    have hclear' := hclear.silent (hp.trace hrun)
    cases r with
    | ok a => exact hnext t a hrun hclear'
    | error e => exact ⟨hclear'.mediated _, told_of_unentered hclear'.unentered _⟩

/-- A decision's record first: a sink that fails refuses the call. -/
theorem wp_recordDecision_bind {event : AuditEvent} {f : Unit → KernelM ToolResult}
    {h : KernelTrace} (hclear : Clear h) (htype : event.type ≠ .toolInvoked)
    (hnext : Clear (h ++ [⟨.record event, Settled.fulfilled ()⟩]) →
      Program.wp A (f ()) (Accounted call)
        (h ++ [⟨.record event, Settled.fulfilled ()⟩])) :
    Program.wp A (recordDecision event >>= f) (Accounted call) h := by
  apply Program.wp_bind.mpr
  apply wp_ask_bind.mpr
  refine ⟨GuardsHandlers.other trivial, fun answer => ?_⟩
  cases answer with
  | fulfilled => exact hnext (hclear.record htype)
  | rejected =>
      have hentries : entries (h ++ [⟨.record event, Settled.rejected⟩]) = [] := by
        rw [entries_append, hclear.unentered]
        rfl
      refine ⟨?_, told_of_unentered hentries _⟩
      exact ⟨fun _ _ _ => ⟨hentries, rfl⟩, fun hentered => absurd hentries hentered⟩

omit [HostPlatform] in
/-- **Writing about the call**, whatever the sink and the hook answer. -/
theorem wp_recordOutcome {Q : KernelTrace → Except KernelError Unit → Prop} {event : AuditEvent}
    {h : KernelTrace} (hopen : Unwritten h) (htype : event.type = .toolInvoked)
    (hQ : ∀ u, entries u = [] → Written (h ++ u) event.outcome → Q (h ++ u) (.ok ())) :
    Program.wp A (recordOutcome kernel event) Q h := by
  unfold recordOutcome
  apply wp_ask_bind.mpr
  refine ⟨GuardsHandlers.other trivial, fun answer => ?_⟩
  have hwritten := hopen.write htype answer
  cases answer with
  | fulfilled => exact hQ _ rfl hwritten
  | rejected =>
      dsimp only
      split
      · refine ⟨GuardsHandlers.other trivial, fun _ => ?_⟩
        have hreported := hwritten.snoc (e := ⟨.onAuditError event, ()⟩) rfl
        rw [List.append_assoc] at hreported ⊢
        exact hQ _ rfl hreported
      · exact hQ _ rfl hwritten

theorem wp_recordToolInvoked {Q : KernelTrace → Except KernelError Unit → Prop} {h : KernelTrace}
    {ofContext : AccessContext} {source : AuditSource} {callId tool : JsString}
    {outcome : AuditOutcome} {reasonCode : Option JsString} {detail : ToolResultAuditDetail}
    (hopen : Unwritten h)
    (hQ : ∀ u, entries u = [] → Written (h ++ u) outcome → Q (h ++ u) (.ok ())) :
    Program.wp A
      (recordToolInvoked kernel ofContext source callId tool outcome reasonCode detail) Q h := by
  unfold recordToolInvoked
  apply wp_ask_bind.mpr
  refine ⟨GuardsHandlers.other trivial, fun hash => ?_⟩
  unfold stampEvent
  apply wp_ask_bind.mpr
  refine ⟨GuardsHandlers.other trivial, fun id => ?_⟩
  apply wp_recordOutcome ((hopen.snoc rfl).snoc rfl) rfl
  intro u hu hwritten
  rw [List.append_assoc, List.append_assoc] at hwritten ⊢
  exact hQ _ hu hwritten

omit [HostPlatform] in
theorem finishes_stampEvent {input : AuditEventInput} {t : KernelTrace} {event : AuditEvent}
    (h : Program.Finishes (stampEvent context input) t (.ok event)) :
    event.toAuditEventInput = input := by
  unfold stampEvent ask at h
  rw [Program.perform_bind, Program.finishes_ask] at h
  obtain ⟨id, t', rfl, h⟩ := h
  rw [Program.pure_eq, Program.finishes_done] at h
  cases h.2
  rfl

/-- Recording a decision: the record is the one the decision gives. -/
theorem wp_recordAuthorizationDecision_bind {request : CapabilityRequirement}
    {decision : AuthorizationDecision} {consume : Bool} {authorityHash operationId : Option JsString}
    {explanation : Option AuthorizationExplanation} {f : Unit → KernelM ToolResult}
    {h : KernelTrace} (hclear : Clear h)
    (hnext : ∀ t event, Clear (h ++ t) → (event, Settled.fulfilled ()) ∈ records (h ++ t) →
      event.toAuditEventInput = authorizationChecked request decision consume authorityHash
        operationId explanation →
      Program.wp A (f ()) (Accounted call) (h ++ t)) :
    Program.wp A
      (recordAuthorizationDecision context request decision consume authorityHash operationId
        explanation >>= f) (Accounted call) h := by
  unfold recordAuthorizationDecision
  rw [Program.bind_assoc]
  apply wp_quiet_bind (quiet_stampEvent _ _) hclear
  intro t event hrun hclear'
  have hinput := finishes_stampEvent hrun
  apply wp_recordDecision_bind hclear'
  · rw [hinput]
    exact nofun
  · intro hclear''
    rw [List.append_assoc] at hclear'' ⊢
    apply hnext _ event hclear'' _ hinput
    simp [records, recordOf]

omit [HostPlatform] in
/-- The accepted record of a decision that allowed the request for the call. -/
theorem recorded_of_input {authority : ResolvedAuthority} {request : CapabilityRequirement}
    {decision : AuthorizationDecision} {consume : Bool} {t : KernelTrace} {event : AuditEvent}
    {explanation : Option AuthorizationExplanation}
    (hmem : (event, Settled.fulfilled ()) ∈ records t)
    (hinput : event.toAuditEventInput = authorizationChecked request decision consume
      (some authority.snapshot.hash) (some call.id) explanation)
    (hallowed : decision.allowed = true) : Recorded call authority request t := by
  refine ⟨event, hmem, ?_⟩
  rw [hinput]
  unfold authorizationChecked
  rw [if_pos hallowed]
  exact ⟨rfl, rfl, rfl, rfl, rfl, rfl⟩

/-- **Deciding and recording**, before anything acts on the decision. -/
theorem wp_decideAndRecord_bind {authority : ResolvedAuthority} {request : CapabilityRequirement}
    {consume : Bool} {f : AuthorizationDecision → KernelM ToolResult} {h : KernelTrace}
    (hclear : Clear h)
    (hnext : ∀ t decision, Clear (h ++ t) →
      (decision.allowed = true → Recorded call authority request (h ++ t)) →
      Program.wp A (f decision) (Accounted call) (h ++ t)) :
    Program.wp A
      (decideAndRecord kernel context authority request consume (some call.id) >>= f)
      (Accounted call) h := by
  unfold decideAndRecord
  rw [Program.bind_assoc]
  apply wp_quiet_bind (quiet_decideOnGrants ..) hclear
  intro t explained _ hclear'
  rw [Program.bind_assoc]
  apply wp_recordAuthorizationDecision_bind hclear'
  intro t' event hclear'' hmem hinput
  rw [List.append_assoc] at hclear'' hmem ⊢
  exact hnext _ _ hclear'' (recorded_of_input hmem hinput)

/-- An exit: one record under the refusal's own status. -/
theorem wp_refuse {status : ProtocolError → ToolOutcome} {code message : JsString}
    {detail : ToolResultAuditDetail} {h : KernelTrace} (hclear : Clear h) :
    Program.wp A
      (refuse kernel context call status code message detail) (Accounted call) h := by
  unfold refuse recordToolResult
  apply Program.wp_bind.mpr
  apply wp_recordToolInvoked hclear.toUnwritten
  intro u hu hwritten
  refine ⟨hwritten.mediated, told_of_unentered ?_ _⟩
  rw [entries_append, hclear.unentered, hu]
  rfl

end Rules

/-! ## The gates, from the handler back -/

section Gates

variable {kernel : SharedOSKernel} {context : AccessContext} {call : ToolCall}
  {authority : ResolvedAuthority} {handler : ToolHandler} {parsedCall : ToolCall} {h : KernelTrace}
  {A : KernelTrace → KernelOp → Prop} [GuardsHandlers A]

/-- A call that came to a result: one record under its status. -/
theorem wp_recordResult {c : AuthorizedCall} (result : ToolResult) (hopen : Unwritten h)
    (hanswered : result.status = .denied → HandlerAnswered call result h) :
    Program.wp A
      (ask (.dispatchCause c.parsedCall) >>= fun dispatchCause =>
        recordToolResult kernel c.context c.call result
          { c.detail with
            cause := if result.status = .succeeded then none else dispatchCause } >>= fun _ =>
        pure result) (Accounted call) h := by
  apply wp_ask_bind.mpr
  refine ⟨GuardsHandlers.other trivial, fun cause => ?_⟩
  unfold recordToolResult
  apply Program.wp_bind.mpr
  apply wp_recordToolInvoked (hopen.snoc rfl)
  intro u _ hwritten
  refine ⟨hwritten.mediated, nofun, ?_⟩
  intro result' heq hdenied _
  cases heq
  obtain ⟨handler, context, parsedCall, candidate, hmem, haccept⟩ := hanswered hdenied
  exact ⟨handler, context, parsedCall, candidate, by simp [hmem], haccept⟩

/-- A handler that was entered and stopped: one record, and then the stop. -/
theorem wp_interrupted {c : AuthorizedCall} {reasonCode : JsString} {e : KernelError}
    {f : ToolResult → KernelM ToolResult} (hopen : Unwritten h)
    (he : e ≠ .auditUnavailable .none) :
    Program.wp A
      (((handlerPort kernel c).interrupted reasonCode >>= fun _ => raise e) >>= f)
      (Accounted call) h := by
  rw [Program.bind_assoc]
  apply Program.wp_bind.mpr
  unfold handlerPort
  apply wp_recordToolInvoked hopen
  intro u _ hwritten
  refine ⟨hwritten.mediated, ?_, nofun⟩
  intro heq
  exact absurd (Except.error.inj heq) he

/-- **What is done with a handler's answer.** It comes to a result nothing is written about yet, or
to one record and a stop. -/
theorem wp_settlePort_bind {c : AuthorizedCall} {handed : AccessContext}
    {operation : ProviderErrorOperation} {answer : PortAnswer ToolResult}
    {f : ToolResult → KernelM ToolResult} (hopen : Unwritten h)
    (hentered : ⟨.invokeHandler c.handler handed c.parsedCall, answer⟩ ∈ h)
    (hnext : ∀ u result, Unwritten (h ++ u) →
      (result.status = .denied → HandlerAnswered c.call result (h ++ u)) →
      Program.wp A (f result) (Accounted call) (h ++ u)) :
    Program.wp A (settlePort kernel { (handlerPort kernel c).handling with operation } answer >>= f)
      (Accounted call) h := by
  have hgoes (u : KernelTrace) {result : ToolResult} (hopen : Unwritten (h ++ u))
      (hfailed : result.status ≠ .denied) :
      Program.wp A (f result) (Accounted call) (h ++ u) :=
    hnext u result hopen fun hdenied => absurd hdenied hfailed
  cases answer with
  | returned candidate =>
      have hhere := hnext []
      rw [List.append_nil] at hhere
      apply hhere _ hopen
      intro hdenied
      cases haccept : candidate.bind (acceptToolResult c.call) with
      | none =>
          unfold handlerPort WorkPort.handling at hdenied
          rw [haccept] at hdenied
          exact absurd hdenied nofun
      | some result =>
          obtain ⟨answered, rfl, haccept'⟩ := Option.bind_eq_some_iff.mp haccept
          refine ⟨c.handler, handed, c.parsedCall, answered, hentered, ?_⟩
          rw [haccept']
          unfold handlerPort WorkPort.handling
          rw [haccept]
          rfl
  | threwAuditUnavailable => exact wp_interrupted hopen nofun
  | threw =>
      show Program.wp _ ((ask .signalAborted >>= _) >>= _) _ _
      rw [Program.bind_assoc]
      apply wp_ask_bind.mpr
      refine ⟨GuardsHandlers.other trivial, fun aborted => ?_⟩
      cases aborted with
      | true => exact wp_interrupted (hopen.snoc rfl) nofun
      | false =>
          show Program.wp _ ((reportProviderError _ _ _ _ >>= fun _ => pure _) >>= _) _ _
          rw [Program.bind_assoc]
          unfold reportProviderError
          split
          · apply wp_ask_bind.mpr
            refine ⟨GuardsHandlers.other trivial, fun _ => ?_⟩
            rw [List.append_assoc]
            refine hgoes _ ?_ nofun
            rw [← List.append_assoc]
            exact (hopen.snoc rfl).snoc rfl
          · exact hgoes _ (hopen.snoc rfl) nofun

omit [HostPlatform] in
theorem finishes_throwIfAborted {t : KernelTrace} (hrun : Program.Finishes throwIfAborted t (.ok ())) :
    t = [⟨.signalAborted, false⟩] := by
  unfold throwIfAborted ask at hrun
  rw [Program.perform_bind, Program.finishes_ask] at hrun
  obtain ⟨aborted, u, rfl, hrest⟩ := hrun
  cases aborted with
  | true => cases (Program.finishes_throw.mp hrest).2
  | false =>
      rw [(Program.finishes_done.mp hrest).1]

/-- **The handler, and the one record of what came of it.** -/
theorem wp_runHandler {c : AuthorizedCall} (hclear : Clear h)
    (hdecided : Decided kernel c.context c.call c.handler c.parsedCall h) :
    Program.wp (Guarded kernel c.context c.call) (runHandler kernel c) (Accounted c.call) h := by
  unfold runHandler
  rw [invokePort_eq, Program.bind_assoc]
  apply wp_quiet_bind quiet_throwIfAborted hclear
  intro t _ hrun hclear'
  rw [Program.bind_assoc]
  apply wp_ask_bind.mpr
  have hunaborted : (h ++ t).getLast? = some ⟨.signalAborted, false⟩ := by
    rw [finishes_throwIfAborted hrun, List.getLast?_append]
    rfl
  refine ⟨⟨rfl, hclear', hdecided.append t, hunaborted⟩, fun answer => ?_⟩
  -- from here on the handler was entered, and exactly one of the exits below is taken
  have hopen := hclear'.toUnwritten.snoc
    (show recordOf ⟨.invokeHandler c.handler c.context c.parsedCall, answer⟩ = none from rfl)
  apply wp_settlePort_bind hopen (List.mem_append_right _ List.mem_cons_self)
  intro u result hopen' hanswered
  exact wp_recordResult result hopen' hanswered

theorem requirementIsWithinDefinition_iff {definition : ToolDefinition}
    {requirement : CapabilityRequirement} :
    requirementIsWithinDefinition definition requirement context = true ↔
      WithinDeclared definition requirement context := by
  unfold requirementIsWithinDefinition
  simp only [Bool.and_eq_true, decide_eq_true_eq, addressesEqual_iff, List.isPrefixOf_iff_prefix]
  constructor
  · rintro ⟨⟨⟨haction, hnamespace⟩, howner⟩, hpath⟩
    exact ⟨haction, hnamespace, howner, hpath⟩
  · intro hwithin
    exact ⟨⟨⟨hwithin.action, hwithin.namespace⟩, hwithin.owner⟩, hwithin.path⟩

theorem requirementBelongsToContext_iff {requirement : CapabilityRequirement} :
    requirementBelongsToContext requirement context = true ↔
      requirement.resource.owner.getD context.owner = context.owner := by
  unfold requirementBelongsToContext
  split
  · next howner => simp [howner]
  · next owner howner => simp [howner]

theorem wp_decideCall {requirement : CapabilityRequirement} (hclear : Clear h)
    (hoffered : Offered kernel context call authority handler h)
    (hrequirement : RequirementOf handler context parsedCall h requirement) :
    Program.wp (Guarded kernel context call)
      (decideCall kernel context call authority handler parsedCall requirement) (Accounted call) h := by
  unfold decideCall
  split
  · apply wp_decideAndRecord_bind hclear
    intro t crossing hclear' _
    exact wp_refuse hclear'
  split
  · exact wp_refuse hclear
  · next hworld hceiling =>
      have hworld' := requirementBelongsToContext_iff.mp (by simpa using hworld)
      have hceiling' := requirementIsWithinDefinition_iff.mp (by simpa using hceiling)
      apply wp_decideAndRecord_bind hclear
      intro t decision hclear' hrecorded
      split
      · exact wp_refuse hclear'
      · next hallowed =>
          have hrecorded' := hrecorded (by simpa using hallowed)
          exact wp_runHandler
            (c := { context, call, handler, parsedCall, requirement, decision }) hclear'
            ⟨authority, requirement, hoffered.append t, hrequirement.append t, hrecorded', hceiling',
              hworld'⟩

theorem wp_resolveCall (hclear : Clear h)
    (hoffered : Offered kernel context call authority handler h) :
    Program.wp (Guarded kernel context call)
      (resolveCall kernel context call authority handler parsedCall) (Accounted call) h := by
  unfold resolveCall
  split
  · next hresolves =>
      apply wp_ask_bind.mpr
      refine ⟨trivial, fun answer => ?_⟩
      have hclear' := hclear.asked
        (show Silent (.resolveRequirement handler context parsedCall) from trivial) answer
      cases answer with
      | rejected =>
          apply wp_quiet_bind (quiet_reportProviderError ..) hclear'
          intro t _ _ hclear''
          exact wp_refuse hclear''
      | fulfilled resolved =>
          apply wp_decideCall hclear' (hoffered.append _)
          unfold RequirementOf
          rw [if_pos hresolves]
          exact ⟨resolved, by simp, rfl⟩
  · next hresolves =>
      apply wp_decideCall hclear hoffered
      unfold RequirementOf
      rw [if_neg hresolves]
      rfl

theorem wp_parseCallThen {rest : ToolCall → KernelM ToolResult} (hclear : Clear h)
    (hoffered : Offered kernel context call authority handler h)
    (hrest : ∀ u parsedCall, Clear (h ++ u) →
      Offered kernel context call authority handler (h ++ u) →
      Program.wp A (rest parsedCall) (Accounted call) (h ++ u)) :
    Program.wp A (parseCallThen kernel context call handler rest) (Accounted call) h := by
  unfold parseCallThen
  apply wp_ask_bind.mpr
  refine ⟨GuardsHandlers.other trivial, fun answer => ?_⟩
  have hclear' := hclear.asked
    (show Silent (.parseArguments handler call.arguments) from trivial) answer
  dsimp only
  split
  · apply wp_quiet_bind (quiet_reportProviderError ..) hclear'
    intro t _ _ hclear''
    exact wp_refuse hclear''
  · exact hrest _ _ hclear' (hoffered.append _)

theorem wp_discoverToolThen {rest : KernelM ToolResult} (hclear : Clear h)
    (htrace : call.traceId = context.traceId)
    (hcatalogued : Catalogued kernel context call handler h)
    (henabled : handler.definition.namespace ∈ context.enabledToolNamespaces)
    (hrest : ∀ u, Clear (h ++ u) → Offered kernel context call authority handler (h ++ u) →
      Program.wp A rest (Accounted call) (h ++ u)) :
    Program.wp A (discoverToolThen kernel context call authority handler rest)
      (Accounted call) h := by
  unfold discoverToolThen
  dsimp only
  apply wp_quiet_bind (quiet_decideOnGrants ..) hclear
  intro t discoverable hrun hclear'
  split
  · apply wp_recordAuthorizationDecision_bind hclear'
    intro u event hclear'' _ _
    exact wp_refuse hclear''
  · next hallowed =>
      apply hrest _ hclear'
      refine ⟨htrace, hcatalogued.append t, henabled, h, t, [], discoverable, by simp, hrun, ?_⟩
      simpa using hallowed

/-- **The gates from the catalogue to the arguments.** -/
theorem wp_findCatalogThen {rest : ToolHandler → ToolCall → KernelM ToolResult} (hclear : Clear h)
    (htrace : call.traceId = context.traceId)
    (hrest : ∀ u handler parsedCall, Clear (h ++ u) →
      Offered kernel context call authority handler (h ++ u) →
      Program.wp A (rest handler parsedCall) (Accounted call) (h ++ u)) :
    Program.wp A
      (findCatalogThen kernel context call fun tools =>
        findToolThen kernel context call tools fun handler =>
          discoverToolThen kernel context call authority handler
            (parseCallThen kernel context call handler (rest handler))) (Accounted call) h := by
  unfold findCatalogThen
  apply wp_quiet_bind (quiet_resolveToolRegistry kernel context) hclear
  intro t outcome hrun hclear₁
  cases outcome with
  | error e =>
      apply wp_quiet_bind quiet_throwIfAborted hclear₁
      intro u _ _ hclear₂
      apply wp_quiet_bind (quiet_reportProviderError ..) hclear₂
      intro v _ _ hclear₃
      exact wp_refuse hclear₃
  | ok tools =>
      show Program.wp A (findToolThen kernel context call tools _) _ _
      unfold findToolThen
      split
      · exact wp_refuse hclear₁
      · next handler hget =>
          have hcatalogued : Catalogued kernel context call handler (h ++ t) :=
            ⟨h, t, [], tools, by simp, hrun, hget⟩
          split
          · exact wp_refuse hclear₁
          · next henabled =>
              apply wp_discoverToolThen hclear₁ htrace hcatalogued (by simpa using henabled)
              intro u hclear₂ hoffered
              apply wp_parseCallThen hclear₂ hoffered
              intro v parsedCall hclear₃ hoffered'
              simp only [List.append_assoc] at hclear₃ hoffered' ⊢
              exact hrest _ handler parsedCall hclear₃ hoffered'

/-- A load writes its own record, and a failure of it refuses the call. -/
theorem wp_loadAuthority_bind {f : AuthorityResolution → KernelM ToolResult} (hclear : Clear h)
    (hnext : ∀ t resolution, Clear (h ++ t) →
      Program.wp A (f resolution) (Accounted call) (h ++ t)) :
    Program.wp A (loadAuthority kernel context >>= f) (Accounted call) h := by
  unfold loadAuthority
  rw [Program.bind_assoc]
  apply wp_quiet_bind (quiet_resolveGrants context) hclear
  intro t resolved _ hclear₁
  rw [Program.bind_assoc]
  apply wp_quiet_bind (quiet_loadHostPolicy kernel context) hclear₁
  intro u hostPolicy _ hclear₂
  dsimp only
  rw [Program.bind_assoc]
  apply wp_quiet_bind (quiet_stampEvent _ _) hclear₂
  intro v event hrun hclear₃
  rw [Program.bind_assoc]
  apply wp_recordDecision_bind hclear₃
  · rw [finishes_stampEvent hrun, authorityResolved_type]
    exact nofun
  · intro hclear₄
    simp only [List.append_assoc] at hclear₄ ⊢
    exact hnext _ _ hclear₄

/-- Authority first: the lease's, or a load. -/
theorem wp_resolveTurnAuthority_bind {f : AuthorityResolution → KernelM ToolResult}
    (hclear : Clear h)
    (hnext : ∀ t resolution, Clear (h ++ t) →
      Program.wp A (f resolution) (Accounted call) (h ++ t)) :
    Program.wp A (resolveTurnAuthority kernel context >>= f) (Accounted call) h := by
  unfold resolveTurnAuthority
  rw [Program.bind_assoc]
  apply wp_ask_bind.mpr
  refine ⟨GuardsHandlers.other trivial, fun leased => ?_⟩
  have hclear' := hclear.asked
    (show Silent (.leasedAuthority (turnAuthorityKey context)) from trivial) leased
  cases leased with
  | some resolution => exact hnext _ _ hclear'
  | none =>
      apply wp_loadAuthority_bind hclear'
      intro t resolution hclear''
      rw [List.append_assoc] at hclear'' ⊢
      exact hnext _ _ hclear''

theorem wp_invokeTool :
    Program.wp (Guarded kernel context call) (invokeTool kernel context call) (Accounted call) [] := by
  have hempty : Clear [] := ⟨fun _ hr => absurd hr List.not_mem_nil, rfl, rfl⟩
  unfold invokeTool
  apply wp_quiet_bind quiet_throwIfAborted hempty
  intro t _ _ hclear
  split
  · exact wp_refuse hclear
  · next htrace =>
      apply wp_resolveTurnAuthority_bind hclear
      intro u resolution hclear'
      cases resolution with
      | unavailable code detail => exact wp_refuse hclear'
      | resolved authority =>
          apply wp_findCatalogThen hclear' (by simpa using htrace)
          intro v handler parsedCall hclear'' hoffered
          exact wp_resolveCall hclear'' hoffered

theorem authorized_of_asks {t : KernelTrace} {context' : AccessContext}
    (h : Program.Asks (invokeTool kernel context call) t
      (.invokeHandler handler context' parsedCall)) :
    context' = context ∧ Authorized kernel context call handler parsedCall t :=
  (Program.wp_sound wp_invokeTool).1 t _ h

theorem accounted_of_finishes {t : KernelTrace} {r : Except KernelError ToolResult}
    (h : Program.Finishes (invokeTool kernel context call) t r) : Accounted call t r :=
  (Program.wp_sound wp_invokeTool).2 t r h

end Gates

end Spec

namespace Sample

open SharedOS.Core.Sample in
/-- A tool that reads the one document the worker was given. -/
def reader : ToolHandler where
  definition :=
    { name := "files.read"
      description := "Read a document"
      «namespace» := "files"
      source := "files"
      readWrite := .read
      inputSchema := .obj []
      outputSchema := none
      requiredCapability := reading
      annotations := none
      metadata := none }
  resolvesRequirement := false
  implementation := 0

/-- A kernel with a store of uses and a resolver of delegations. -/
def kernel : SharedOSKernel where
  catalog := { tools := .empty, messageTool := none, toolProviders := [] }
  hasPolicySource := false
  hasUsageStore := true
  hasGrantVerifier := false
  hasDelegationResolver := true
  maxDelegationChainLength := none
  hasHostCeiling := false
  authorizerReportsErrors := false
  reportsAuditErrors := true
  reportsProviderErrors := false

/-- A call of the reader. -/
def call : ToolCall where
  id := "call"
  tool := "files.read"
  arguments := .obj []
  traceId := Core.Sample.context.traceId
  requestedAt := "2026-03-01T00:00:00Z"

open SharedOS.Core.Sample in
/-- Surroundings in which the handler throws and the sink refuses what is written about the call. -/
def surroundings : (o : KernelOp) → o.Answer
  | .signalAborted => false
  | .leasedAuthority _ => some (.resolved authority)
  | .leasedRegistry _ => some (.ok ⟨[reader], List.nodup_singleton _⟩)
  | .leasedCatalogHash _ => none
  | .loadGrants _ => .rejected
  | .loadPolicy _ => .threw
  | .verifyGrant .. => .rejected
  | .resolveParent .. => .rejected
  | .getUsage .. => .fulfilled 0
  | .tryConsume .. => .fulfilled true
  | .narrow .. => .threw
  | .createAuditId => "audit"
  | .record event => if event.type = .toolInvoked then .rejected else .fulfilled ()
  | .onAuditError _ => ()
  | .onProviderError _ => ()
  | .listTools .. => .threw
  | .parseArguments .. => .fulfilled (some (.obj []))
  | .resolveRequirement .. => .rejected
  | .invokeHandler .. => .threw
  | .dispatchCause _ => none
  | .heldContext _ was => was
  | .heldRequirement _ was => was

end Sample

end SharedOS.Kernel
