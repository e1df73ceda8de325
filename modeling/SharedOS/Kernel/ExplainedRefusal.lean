/-
SharedOS.Kernel.ExplainedRefusal — every denial of the kernel's own is explained by its records.

A call that the kernel denies without entering its handler has one record of the call and, where a
decision refused it, one record of that decision. From any log that holds them, among whatever other
operations wrote, `explainRefusal` gives the code the caller was given and the gate that refused.
-/
import SharedOS.Kernel.Refusal

namespace SharedOS.Kernel

open SharedOS.Foundation SharedOS.Contracts SharedOS.Core

/-! ## What a call has written about itself -/

/-- The records under the call's own id, of one type and denied. -/
def ownDenials (type : AuditEventType) (callId : JsString) (t : KernelTrace) :
    List (AuditEvent × Settled Unit) :=
  (records t).filter fun w =>
    w.1.operationId = some callId ∧ w.1.type = type ∧ w.1.outcome = .denied

/-- What the sink has taken. -/
def acceptedEvents (t : KernelTrace) : List AuditEvent :=
  ((records t).filter fun w => w.2 = .fulfilled ()).map Prod.fst

@[simp] theorem ownDenials_append (type : AuditEventType) (callId : JsString) (t u : KernelTrace) :
    ownDenials type callId (t ++ u) = ownDenials type callId t ++ ownDenials type callId u := by
  unfold ownDenials
  rw [records_append, List.filter_append]

theorem ownDenials_silent {type : AuditEventType} {callId : JsString} {t : KernelTrace}
    (h : records t = []) : ownDenials type callId t = [] := by
  unfold ownDenials
  rw [h]
  rfl

/-- The denials of a call in what the sink has taken, where it has taken them all. -/
theorem denialsOf_accepted {type : AuditEventType} {callId : JsString} {t : KernelTrace}
    (h : ∀ w ∈ ownDenials type callId t, w.2 = .fulfilled ()) :
    denialsOf type (ownEvents callId (acceptedEvents t)) =
      (ownDenials type callId t).map Prod.fst := by
  unfold denialsOf ownEvents acceptedEvents
  unfold ownDenials at h ⊢
  rw [List.filter_map, List.filter_map, List.filter_filter, List.filter_filter]
  congr 1
  apply List.filter_congr
  intro w hw
  by_cases hown : w.1.operationId = some callId ∧ w.1.type = type ∧ w.1.outcome = .denied
  · have htaken := h w (List.mem_filter.mpr ⟨hw, by simpa using hown⟩)
    simp [hown, htaken]
  · by_cases hid : w.1.operationId = some callId
    · have hrest : ¬ (w.1.type = type ∧ w.1.outcome = .denied) := fun hrest => hown ⟨hid, hrest⟩
      simp [hid, hrest]
    · simp [hid]

/-! ## Where a call was refused -/

section Spec

variable [HostPlatform]

/-- The check that refused a call, and the record of the decision where there was one. -/
inductive RefusedAt (kernel : SharedOSKernel) (context : AccessContext) (call : ToolCall)
    (t : KernelTrace) : RefusalGate → Option AuditEvent → Prop
  | trace (h : call.traceId ≠ context.traceId) : RefusedAt kernel context call t .request none
  | authority {t₁ t₂ t₃ : KernelTrace} {code : AuthorityUnavailableCode}
      {detail : Option AuthorityUnavailableDetail} (htrace : t = t₁ ++ t₂ ++ t₃)
      (h : Program.Finishes (resolveTurnAuthority kernel context) t₂ (.ok (.unavailable code detail))) :
      RefusedAt kernel context call t .infrastructure none
  | unregistered {t₁ t₂ t₃ : KernelTrace} {tools : ToolRegistry} (htrace : t = t₁ ++ t₂ ++ t₃)
      (h : Program.Finishes (resolveToolRegistry kernel context) t₂ (.ok (.ok tools)))
      (hget : tools.get call.tool = none) : RefusedAt kernel context call t .registration none
  | disabled {handler : ToolHandler} (h : Catalogued kernel context call handler t)
      (hdisabled : handler.definition.namespace ∉ context.enabledToolNamespaces) :
      RefusedAt kernel context call t .registration none
  | decided {t₁ t₂ t₃ : KernelTrace} {authority : ResolvedAuthority}
      {request : CapabilityRequirement} {matcher : Matcher} {consume describeMissing : Bool}
      {explained : Explained} {gate : RefusalGate} {event : AuditEvent}
      (htrace : t = t₁ ++ t₂ ++ t₃)
      (h : Program.Finishes (decideOnGrants kernel.authorizer authority request matcher consume
        (some context.now) describeMissing) t₂ (.ok explained))
      (hdenied : explained.decision.allowed = false)
      (hgate : gateOf explained.decision.reasonCode = some gate)
      (hreason : event.reason = some explained.decision.reasonCode.text) :
      RefusedAt kernel context call t gate (some event)

/-- The leases this run read are those of contexts with this owner, as the key of a lease has it. -/
def LeasesAgree (context : AccessContext) (t : KernelTrace) : Prop :=
  ∀ key authority, ⟨.leasedAuthority key, some (.resolved authority)⟩ ∈ t →
    authority.context.owner = context.owner

/-- What a denied call that entered no handler has behind it. -/
structure Refused (kernel : SharedOSKernel) (context : AccessContext) (call : ToolCall)
    (t : KernelTrace) (result : ToolResult) (gate : RefusalGate) (decision : Option AuditEvent)
    (event : AuditEvent) : Prop where
  at_ : RefusedAt kernel context call t gate decision
  written : ∃ answer, ownDenials .toolInvoked call.id t = [(event, answer)]
  decided : ownDenials .authorizationChecked call.id t =
    (decision.map fun record => (record, Settled.fulfilled ())).toList
  classified : classifyRefusal event = some gate
  source : event.source = some .kernel
  code : ∃ code, event.reason = some code ∧ result.errorCode = some code ∧
    ∀ record, decision = some record → record.reason = some (event.cause.getD code)

/-- How a call ends, as far as its denials go. -/
def DenialTold (kernel : SharedOSKernel) (context : AccessContext) (call : ToolCall)
    (t : KernelTrace) : Except KernelError ToolResult → Prop
  | .error _ => True
  | .ok result => result.status = .denied → entries t = [] → LeasesAgree context t →
    ∃ gate decision event, Refused kernel context call t result gate decision event

/-- From the trace so far, every run of the program tells its denial. -/
abbrev Tells (kernel : SharedOSKernel) (context : AccessContext) (call : ToolCall)
    (p : KernelM ToolResult) (h : KernelTrace) : Prop :=
  Program.wp (fun _ _ => True) p (DenialTold kernel context call) h

/-- The call has denied nothing yet. -/
structure Undenied (callId : JsString) (h : KernelTrace) : Prop where
  invoked : ownDenials .toolInvoked callId h = []
  checked : ownDenials .authorizationChecked callId h = []

section Rules

variable {kernel : SharedOSKernel} {context : AccessContext} {call : ToolCall} {h : KernelTrace}

theorem tells_bind {α : Type} {p : KernelM α} {f : α → KernelM ToolResult}
    (hnext : ∀ t a, Program.Finishes p t (.ok a) → Tells kernel context call (f a) (h ++ t)) :
    Tells kernel context call (p >>= f) h := by
  apply Program.wp_bind.mpr
  apply Program.wp_of_runs
  · intro t o _
    trivial
  · intro t r hrun
    cases r with
    | ok a => exact hnext t a hrun
    | error e => trivial

omit [HostPlatform] in
theorem Undenied.silent {callId : JsString} {u : KernelTrace} (hopen : Undenied callId h)
    (hu : records u = []) : Undenied callId (h ++ u) := by
  constructor
  · rw [ownDenials_append, hopen.invoked, ownDenials_silent hu]
    rfl
  · rw [ownDenials_append, hopen.checked, ownDenials_silent hu]
    rfl

omit [HostPlatform] in
theorem ownDenials_unwritten {type : AuditEventType} {callId : JsString} {u : KernelTrace}
    (hu : ∀ w ∈ records u, w.1.type ≠ type) : ownDenials type callId u = [] := by
  unfold ownDenials
  apply List.filter_eq_nil_iff.mpr
  intro w hw
  simp [hu w hw]

/-- A load of authority writes under no call's id. -/
theorem Undenied.resolved {callId : JsString} {u : KernelTrace} {resolution : AuthorityResolution}
    (hopen : Undenied callId h)
    (hrun : Program.Finishes (resolveTurnAuthority kernel context) u (.ok resolution)) :
    Undenied callId (h ++ u) := by
  have hinvoked : Decisive .toolInvoked (resolveTurnAuthority kernel context) :=
    decisive_resolveTurnAuthority (by decide)
  have hchecked : Decisive .authorizationChecked (resolveTurnAuthority kernel context) :=
    decisive_resolveTurnAuthority (by decide)
  constructor
  · rw [ownDenials_append, hopen.invoked, ownDenials_unwritten (hinvoked.unwritten hrun)]
    rfl
  · rw [ownDenials_append, hopen.checked, ownDenials_unwritten (hchecked.unwritten hrun)]
    rfl

/-- A part that writes nothing under the call's id. -/
theorem tells_quiet_bind {α : Type} {p : KernelM α} {f : α → KernelM ToolResult} (hp : Quiet p)
    (hopen : Undenied call.id h)
    (hnext : ∀ t a, Program.Finishes p t (.ok a) → Undenied call.id (h ++ t) →
      Tells kernel context call (f a) (h ++ t)) : Tells kernel context call (p >>= f) h := by
  apply tells_bind
  intro t a hrun
  exact hnext t a hrun (hopen.silent (records_silent (hp.trace hrun)))

theorem finishes_recordToolInvoked {ofContext : AccessContext} {source : AuditSource}
    {callId tool : JsString} {outcome : AuditOutcome} {reasonCode : Option JsString}
    {detail : ToolResultAuditDetail} {t : KernelTrace} {r : Except KernelError Unit}
    (hrun : Program.Finishes
      (recordToolInvoked kernel ofContext source callId tool outcome reasonCode detail) t r) :
    ∃ event answer hash, records t = [(event, answer)] ∧
      event.toAuditEventInput = toolInvoked source callId tool outcome reasonCode detail hash := by
  obtain ⟨hash, u, rfl, hrest⟩ := Program.finishes_ask.mp hrun
  have hwrite : Program.Finishes (recordAbout kernel ofContext
      (toolInvoked source callId tool outcome reasonCode detail hash)) u r := hrest
  obtain ⟨-, event, answer, hrecords, hinput⟩ := finishes_recordAbout hwrite
  exact ⟨event, answer, hash, hrecords, hinput⟩

/-- A call that is not denied has nothing to tell. -/
theorem tells_undenied {p : KernelM ToolResult}
    (hp : Program.Returns (fun result => result.status ≠ .denied) p) :
    Tells kernel context call p h := by
  apply Program.wp_of_runs
  · intro t o _
    trivial
  · intro t r hrun
    cases r with
    | error e => trivial
    | ok result =>
        intro hdenied
        exact absurd hdenied (hp.of_finishes hrun)

/-- **A denial**: the one record of the call, after the decision's where there was one. -/
theorem tells_refuse (gate : RefusalGate) (decision : Option AuditEvent) {code message : JsString}
    {detail : ToolResultAuditDetail} (hopen : ownDenials .toolInvoked call.id h = [])
    (hdecided : ownDenials .authorizationChecked call.id h =
      (decision.map fun record => (record, Settled.fulfilled ())).toList)
    (hat : ∀ t, LeasesAgree context (h ++ t) → RefusedAt kernel context call (h ++ t) gate decision)
    (hclassified : LeasesAgree context h → ∀ hash event,
      AuditEvent.toAuditEventInput event =
        toolInvoked .kernel call.id call.tool .denied (some code) detail hash →
      classifyRefusal event = some gate)
    (hreason : LeasesAgree context h → ∀ record, decision = some record →
      record.reason = some (detail.cause.getD code)) :
    Tells kernel context call (refuse kernel context call .denied code message detail) h := by
  apply Program.wp_of_runs
  · intro t o _
    trivial
  · intro t r hrun
    unfold refuse at hrun
    rcases Program.finishes_bind.mp hrun with ⟨e, rfl, -⟩ | ⟨_, u, v, rfl, hwrite, hdone⟩
    · trivial
    obtain ⟨rfl, rfl⟩ := Program.finishes_done.mp hdone
    intro _ _ hlease
    rw [List.append_nil] at hlease ⊢
    have hbefore : LeasesAgree context h := fun key authority hmem =>
      hlease key authority (List.mem_append_left u hmem)
    unfold recordToolResult at hwrite
    obtain ⟨event, answer, hash, hrecords, hinput⟩ := finishes_recordToolInvoked hwrite
    have hinput' : event.toAuditEventInput =
        toolInvoked .kernel call.id call.tool .denied (some code) detail hash := hinput
    -- what was written is a denial under the call's own id, so the log has it as one
    have hown : event.operationId = some call.id := by
      rw [hinput']
      rfl
    have htype : event.type = .toolInvoked := by
      rw [hinput']
      rfl
    have houtcome : event.outcome = .denied := by
      rw [hinput']
      rfl
    refine ⟨gate, decision, event, hat u hlease, ⟨answer, ?_⟩, ?_, ?_, ?_, code, ?_, rfl, ?_⟩
    · rw [ownDenials_append, hopen]
      unfold ownDenials
      rw [hrecords]
      simp [hown, htype, houtcome]
    · rw [ownDenials_append, hdecided]
      unfold ownDenials
      rw [hrecords]
      simp [htype]
    · exact hclassified hbefore hash event hinput'
    · rw [hinput']
      rfl
    · rw [hinput']
      rfl
    · intro record hrecord
      rw [show event.cause = detail.cause by rw [hinput']; rfl]
      exact hreason hbefore record hrecord

/-- Nothing is told where the leases are not those of the context. -/
theorem tells_of_foreign {p : KernelM ToolResult} (hforeign : ¬ LeasesAgree context h) :
    Tells kernel context call p h := by
  apply Program.wp_of_runs
  · intro t o _
    trivial
  · intro t r _
    cases r with
    | error e => trivial
    | ok result =>
        intro _ _ hlease
        exact absurd (fun key authority hmem => hlease key authority (List.mem_append_left t hmem))
          hforeign

end Rules

/-! ## The gates, from the handler back -/

/-- Authority is that of a context with this owner, where the leases are. -/
def OwnerKept (context : AccessContext) (authority : ResolvedAuthority) (h : KernelTrace) : Prop :=
  LeasesAgree context h → authority.context.owner = context.owner

theorem resolveAuthority_context {context : AccessContext} {loaded : Settled LoadedGrants}
    {authority : ResolvedAuthority} (h : resolveAuthority context loaded = .resolved authority) :
    authority.context = context := by
  unfold resolveAuthority at h
  split at h
  · cases h
  · cases h
  · split at h
    · cases h
    · split at h
      · cases h
      · cases h
        rfl

section Gates

variable {kernel : SharedOSKernel} {context : AccessContext} {call : ToolCall}
  {authority : ResolvedAuthority} {handler : ToolHandler} {parsedCall : ToolCall} {h : KernelTrace}

omit [HostPlatform] in
theorem LeasesAgree.before {t : KernelTrace} (hlease : LeasesAgree context (h ++ t)) :
    LeasesAgree context h := fun key authority hmem =>
  hlease key authority (List.mem_append_left t hmem)

omit [HostPlatform] in
theorem OwnerKept.append (howner : OwnerKept context authority h) (t : KernelTrace) :
    OwnerKept context authority (h ++ t) := fun hlease => howner hlease.before

/-- What a load comes to is authority in the context itself. -/
theorem loadAuthority_context :
    Program.Returns (fun resolution => ∀ authority, resolution = .resolved authority →
      authority.context = context) (loadAuthority kernel context) := by
  have hresolve : Program.Returns (fun resolution => ∀ authority, resolution = .resolved authority →
      authority.context = context) (resolveGrants context) := by
    unfold resolveGrants
    refine Program.returns_bind fun loaded => ?_
    split
    · exact Program.returns_bind fun _ authority heq => resolveAuthority_context heq
    · exact fun authority heq => resolveAuthority_context heq
  unfold loadAuthority
  refine hresolve.bind fun resolved hresolved => ?_
  refine Program.returns_bind fun hostPolicy => ?_
  refine Program.returns_bind fun event => ?_
  refine Program.returns_bind fun _ => ?_
  intro authority heq
  unfold withHostPolicy at heq
  split at heq
  · next authority' policy =>
      cases heq
      exact hresolved authority' rfl
  · exact hresolved authority heq

theorem owner_of_resolved {t : KernelTrace}
    (hrun : Program.Finishes (resolveTurnAuthority kernel context) t (.ok (.resolved authority))) :
    OwnerKept context authority t := by
  intro hlease
  unfold resolveTurnAuthority at hrun
  obtain ⟨leased, u, rfl, hrest⟩ := Program.finishes_ask.mp hrun
  cases leased with
  | some resolution =>
      cases (Program.finishes_done.mp hrest).2
      exact hlease _ authority List.mem_cons_self
  | none =>
      have hload : Program.Finishes (loadAuthority kernel context) u (.ok (.resolved authority)) :=
        hrest
      rw [loadAuthority_context.of_finishes hload authority rfl]

/-- A failed call is not denied. -/
theorem tells_failed {code message : JsString} {detail : ToolResultAuditDetail} :
    Tells kernel context call (refuse kernel context call .failed code message detail) h := by
  apply tells_undenied
  unfold refuse
  exact Program.returns_bind fun _ => ToolStatus.noConfusion

/-- A call that came to a result entered its handler. -/
theorem tells_runHandler (c : AuthorizedCall) :
    Tells kernel context call (runHandler kernel c) h := by
  apply Program.wp_of_runs
  · intro t o _
    trivial
  · intro t r hrun
    cases r with
    | error e => trivial
    | ok result =>
        intro _ hunentered
        exfalso
        unfold runHandler invokePort at hrun
        rcases Program.finishes_bind.mp hrun with ⟨e, he, -⟩ | ⟨_, u, v, rfl, hport, -⟩
        · cases he
        rcases Program.finishes_bind.mp hport with ⟨e, he, -⟩ | ⟨_, u₁, u₂, rfl, -, hinvoke⟩
        · cases he
        obtain ⟨answer, w, rfl, -⟩ := Program.finishes_ask.mp hinvoke
        simp only [entries_append, List.append_eq_nil_iff] at hunentered
        exact absurd hunentered.2.1.2 (List.cons_ne_nil _ _)

omit [HostPlatform] in
/-- What a denied decision leaves in the trail. -/
theorem Undenied.decided {decision : AuthorizationDecision} {request : CapabilityRequirement}
    {consume : Bool} {hash : Option JsString} {explanation : Option AuthorizationExplanation}
    {event : AuditEvent} {t : KernelTrace} (hopen : Undenied call.id h)
    (hrecords : records t = [(event, Settled.fulfilled ())])
    (hinput : event.toAuditEventInput =
      authorizationChecked request decision consume hash (some call.id) explanation) :
    ownDenials .toolInvoked call.id (h ++ t) = [] ∧
      ownDenials .authorizationChecked call.id (h ++ t) =
        if decision.allowed then [] else [(event, Settled.fulfilled ())] := by
  have hid : event.operationId = some call.id := by
    rw [hinput]
    rfl
  have htype : event.type = .authorizationChecked := by
    rw [hinput]
    rfl
  have houtcome : event.outcome = if decision.allowed then .allowed else .denied := by
    rw [hinput]
    rfl
  constructor
  · rw [ownDenials_append, hopen.invoked]
    unfold ownDenials
    rw [hrecords]
    simp [htype]
  · rw [ownDenials_append, hopen.checked]
    unfold ownDenials
    rw [hrecords]
    cases hallowed : decision.allowed <;> simp [hid, htype, houtcome, hallowed]

/-- **A call denied by a decision that was just recorded.** -/
theorem tells_decided {t : KernelTrace} {request : CapabilityRequirement} {consume : Bool}
    {decision : AuthorizationDecision} {message : JsString} {detail : ToolResultAuditDetail}
    (hopen : Undenied call.id h)
    (hrun : Program.Finishes
      (decideAndRecord kernel context authority request consume (some call.id)) t (.ok decision))
    (hdenied : decision.allowed = false) (hcause : detail.cause = none) :
    Tells kernel context call
      (refuse kernel context call .denied decision.reasonCode.text message detail) (h ++ t) := by
  obtain ⟨t₁, t₂, explained, event, rfl, hdecide, rfl, hrecords, hinput⟩ :=
    finishes_decideAndRecord hrun
  obtain ⟨hinvoked, hchecked⟩ := hopen.decided hrecords hinput
  rw [hdenied] at hchecked
  have hcoded : Coded explained.decision := (decideOnGrants_coded ..).of_finishes hdecide
  obtain ⟨gate, hgate⟩ := gateOf_isSome (hcoded hdenied)
  have hreason : event.reason = some explained.decision.reasonCode.text := by
    rw [hinput]
    unfold authorizationChecked
    rw [hdenied]
    rfl
  refine tells_refuse gate (some event) hinvoked hchecked ?_ ?_ ?_
  · intro u _
    have htrace : h ++ (t₁ ++ t₂) ++ u = h ++ t₁ ++ (t₂ ++ u) := by
      simp only [List.append_assoc]
    exact .decided htrace hdecide hdenied hgate hreason
  · intro _ hash refused hrefused
    rw [classifyRefusal_decided _ hcause hrefused]
    exact hgate
  · rintro _ record hrecord
    cases hrecord
    rw [hreason, hcause]
    rfl

theorem tells_decideCall {requirement : CapabilityRequirement} (hopen : Undenied call.id h)
    (howner : OwnerKept context authority h) :
    Tells kernel context call
      (decideCall kernel context call authority handler parsedCall requirement) h := by
  unfold decideCall
  split
  · next hcrosses =>
      apply tells_bind
      intro t crossing hrun
      cases hallowed : crossing.allowed with
      | false => exact tells_decided hopen hrun hallowed rfl
      | true =>
          -- a crossing is refused by the authorizer itself, whose world is this one's
          apply tells_of_foreign
          intro hlease
          have hsame : requirementBelongsToContext requirement context =
              resourceBelongsToContext requirement.resource authority.context := by
            unfold requirementBelongsToContext resourceBelongsToContext
            cases requirement.resource.owner with
            | none => rfl
            | some owner =>
                show addressesEqual owner _ = addressesEqual owner _
                rw [howner hlease.before]
          rw [hsame, belongs_of_allowed hrun hallowed] at hcrosses
          cases hcrosses
  split
  · exact tells_failed
  · apply tells_bind
    intro t decision hrun
    split
    · next hdenied => exact tells_decided hopen hrun (by simpa using hdenied) rfl
    · exact tells_runHandler _

theorem tells_parseCall (hopen : Undenied call.id h) (howner : OwnerKept context authority h) :
    Tells kernel context call (parseCall kernel context call authority handler) h := by
  have hparse : Quiet (ask (.parseArguments handler call.arguments)) := ⟨trivial, fun _ => trivial⟩
  have hresolve : ∀ parsedCall, Quiet (ask (.resolveRequirement handler context parsedCall)) :=
    fun _ => ⟨trivial, fun _ => trivial⟩
  unfold parseCall parseCallThen
  apply tells_quiet_bind hparse hopen
  intro t answer _ hopen'
  dsimp only
  split
  · apply tells_bind
    intro _ _ _
    exact tells_failed
  · unfold resolveCall
    split
    · apply tells_quiet_bind (hresolve _) hopen'
      intro u resolved _ hopen''
      cases resolved with
      | rejected =>
          apply tells_bind
          intro _ _ _
          exact tells_failed
      | fulfilled requirement => exact tells_decideCall hopen'' ((howner.append t).append u)
    · exact tells_decideCall hopen' (howner.append t)

theorem tells_discoverTool (hopen : Undenied call.id h) (howner : OwnerKept context authority h) :
    Tells kernel context call (discoverTool kernel context call authority handler) h := by
  unfold discoverTool discoverToolThen
  dsimp only
  apply tells_quiet_bind (quiet_decideOnGrants ..) hopen
  intro t discoverable hdecide hopen'
  split
  · next hdenied =>
      have hdenied' : discoverable.decision.allowed = false := by simpa using hdenied
      apply tells_bind
      intro u _ hrecord
      obtain ⟨event, hrecords, hinput⟩ := finishes_recordAuthorizationDecision hrecord
      obtain ⟨hinvoked, hchecked⟩ := hopen'.decided hrecords hinput
      rw [hdenied'] at hchecked
      have hcoded : Coded discoverable.decision := (decideOnGrants_coded ..).of_finishes hdecide
      obtain ⟨gate, hgate⟩ := gateOf_isSome (hcoded hdenied')
      have hreason : event.reason = some discoverable.decision.reasonCode.text := by
        rw [hinput]
        unfold authorizationChecked
        rw [hdenied']
        rfl
      refine tells_refuse gate (some event) hinvoked hchecked ?_ ?_ ?_
      · intro v _
        have htrace : h ++ t ++ u ++ v = h ++ t ++ (u ++ v) := by simp only [List.append_assoc]
        exact .decided htrace hdecide hdenied' hgate hreason
      · intro _ hash refused hrefused
        rw [classifyRefusal_undiscovered rfl hrefused]
        exact hgate
      · rintro _ record hrecord
        cases hrecord
        exact hreason
  · exact tells_parseCall hopen' (howner.append t)

/-- A tool the context does not have. -/
theorem tells_unavailable {cause : JsString} {message : JsString} (hopen : Undenied call.id h)
    (hregistered : cause ∈ registrationCauses)
    (hat : ∀ t, RefusedAt kernel context call (h ++ t) .registration none) :
    Tells kernel context call
      (refuse kernel context call .denied "tool_unavailable" message { cause := some cause }) h := by
  refine tells_refuse .registration none hopen.invoked hopen.checked
    (fun t _ => hat t) ?_ ?_
  · intro _ hash refused hrefused
    exact classifyRefusal_registration hregistered rfl hrefused
  · intro _ record hrecord
    cases hrecord

theorem tells_findCatalog (hopen : Undenied call.id h) (howner : OwnerKept context authority h) :
    Tells kernel context call (findCatalog kernel context call authority) h := by
  unfold findCatalog findCatalogThen
  apply tells_quiet_bind (quiet_resolveToolRegistry kernel context) hopen
  intro t outcome hrun hopen'
  cases outcome with
  | error e =>
      apply tells_bind
      intro _ _ _
      apply tells_bind
      intro _ _ _
      exact tells_failed
  | ok tools =>
      dsimp only
      unfold findTool findToolThen
      split
      · next hget =>
          apply tells_unavailable hopen' (by decide)
          intro u
          exact .unregistered rfl hrun hget
      · next handler hget =>
          split
          · next hdisabled =>
              apply tells_unavailable hopen' (by decide)
              intro u
              exact .disabled ⟨h, t, u, tools, rfl, hrun, hget⟩ (by simpa using hdisabled)
          · exact tells_discoverTool hopen' (howner.append t)

theorem tells_invokeTool : Tells kernel context call (invokeTool kernel context call) [] := by
  have hempty : Undenied call.id [] := ⟨rfl, rfl⟩
  unfold invokeTool
  apply tells_quiet_bind quiet_throwIfAborted hempty
  intro t _ _ hopen
  split
  · next htrace =>
      refine tells_refuse .request none hopen.invoked hopen.checked ?_ ?_ ?_
      · intro u _
        exact .trace htrace
      · intro _ hash refused hrefused
        exact classifyRefusal_trace hrefused
      · intro _ record hrecord
        cases hrecord
  · apply tells_bind
    intro u resolution hrun
    have hopen' : Undenied call.id ([] ++ t ++ u) := hopen.resolved hrun
    cases resolution with
    | unavailable code detail =>
        refine tells_refuse .infrastructure none hopen'.invoked
          hopen'.checked ?_ ?_ ?_
        · intro v _
          exact .authority rfl hrun
        · intro _ hash refused hrefused
          exact classifyRefusal_decided .authorityUnavailable rfl hrefused
        · intro _ record hrecord
          cases hrecord
    | resolved authority =>
        apply tells_findCatalog hopen'
        intro hlease
        exact owner_of_resolved hrun fun key authority hmem =>
          hlease key authority (List.mem_append_right _ hmem)

end Gates

/-! ## The join -/

/-- **A denial of the kernel's own is explained**, from any log that has under the call's id what the
sink took of the call. -/
theorem denied_call_explained (kernel : SharedOSKernel) (context : AccessContext) (call : ToolCall)
    {t : KernelTrace} {result : ToolResult} (log : List AuditEvent)
    (hrun : Program.Finishes (invokeTool kernel context call) t (.ok result))
    (hdenied : result.status = .denied) (hunentered : entries t = [])
    (hlease : LeasesAgree context t)
    (hwritten : ∀ w ∈ invokedRecords t, w.2 = .fulfilled ())
    (hlog : ownEvents call.id log = ownEvents call.id (acceptedEvents t)) :
    ∃ explanation gate, explainRefusal call.id log = some explanation ∧
      explanation.gate = some gate ∧
      RefusedAt kernel context call t gate explanation.decision ∧
      result.errorCode = some explanation.code ∧ explanation.source = some .kernel ∧
      explanation.refusal ∈ log ∧
      ∀ record, explanation.decision = some record →
        record ∈ log ∧ record.reason = some (explanation.cause.getD explanation.code) := by
  have htold : DenialTold kernel context call t (.ok result) :=
    (Program.wp_sound tells_invokeTool).2 t _ hrun
  obtain ⟨gate, decision, event, hrefused⟩ := htold hdenied hunentered hlease
  obtain ⟨answer, hinvoked⟩ := hrefused.written
  obtain ⟨code, hreason, hcode, hcause⟩ := hrefused.code
  -- the sink took both records, so the log has what the run wrote
  have htaken : ∀ w ∈ ownDenials .toolInvoked call.id t, w.2 = .fulfilled () := by
    intro w hw
    have hmem := List.mem_filter.mp hw
    simp only [decide_eq_true_eq] at hmem
    exact hwritten w (List.mem_filter.mpr ⟨hmem.1, by simpa using hmem.2.2.1⟩)
  have hchecked : ∀ w ∈ ownDenials .authorizationChecked call.id t, w.2 = .fulfilled () := by
    rw [hrefused.decided]
    cases decision with
    | none =>
        intro w hw
        cases hw
    | some record =>
        intro w hw
        rw [List.mem_singleton.mp hw]
  have hrefusals : denialsOf .toolInvoked (ownEvents call.id log) = [event] := by
    rw [hlog, denialsOf_accepted htaken, hinvoked]
    rfl
  have hdecisions : denialsOf .authorizationChecked (ownEvents call.id log) = decision.toList := by
    rw [hlog, denialsOf_accepted hchecked, hrefused.decided]
    cases decision <;> rfl
  have hwithin : ∀ type record, record ∈ denialsOf type (ownEvents call.id log) → record ∈ log :=
    fun type record hmem => List.mem_of_mem_filter (List.mem_of_mem_filter hmem)
  have hlast : decision.toList.getLast? = decision := by
    cases decision <;> rfl
  refine ⟨⟨some gate, code, event.source, event.cause, event, decision⟩, gate, ?_, rfl,
    hrefused.at_, hcode, hrefused.source, ?_, ?_⟩
  · unfold explainRefusal
    simp only [hrefusals, hdecisions, List.getLast?_singleton, hreason, hlast, hrefused.classified,
      Option.bind_eq_bind, Option.bind_some]
  · exact hwithin .toolInvoked event (by rw [hrefusals]; exact List.mem_singleton_self _)
  · intro record hrecord
    cases hrecord
    exact ⟨hwithin .authorizationChecked record (by rw [hdecisions]; exact List.mem_singleton_self _),
      hcause record rfl⟩

end Spec

/-! ## A log of two calls -/

namespace Sample

open SharedOS.Core.Sample in
/-- Surroundings whose source returned no grant, and whose sink takes every record. -/
def grantless : (o : KernelOp) → o.Answer
  | .leasedAuthority _ => some (.resolved { authority with grants := [] })
  | .record _ => .fulfilled ()
  | o => surroundings o

open scoped SharedOS.Foundation.Reference in
/-- What another call, refused later, leaves in the same log. -/
def otherRefusal : AuditEvent where
  toAuditEventInput :=
    toolInvoked .kernel "other" "files.read" .denied (some "tool_unavailable")
      { cause := some "not_registered" } none
  id := "audit"
  at_ := Core.Sample.context.now
  traceId := Core.Sample.context.traceId
  namespaceId := Core.Sample.context.namespaceId
  actor := Core.Sample.context.actor
  authority := Core.Sample.context.authority
  owner := Core.Sample.context.owner
  purpose := Core.Sample.context.purpose

end Sample

open scoped SharedOS.Foundation.Reference in
theorem denied_call_explained_interleaved :
    ∃ t result log explanation, Program.Finishes
        (invokeTool Sample.kernel Core.Sample.context Sample.call) t (.ok result) ∧
      log.getLast? = some Sample.otherRefusal ∧
      explainRefusal Sample.call.id log = some explanation ∧
      result.errorCode = some explanation.code ∧ explanation.refusal ∈ log ∧
      (explanation.decision.map fun record => record.reason) =
        some (some ("no_matching_grant" : JsString)) := by
  let whole := Program.runWith Sample.grantless
    (invokeTool Sample.kernel Core.Sample.context Sample.call)
  have hrun : Program.Finishes (invokeTool Sample.kernel Core.Sample.context Sample.call)
      whole.1 whole.2 := Program.finishes_runWith _ _
  have hstatus : whole.2.map ToolResult.status = .ok .denied := rfl
  cases hend : whole.2 with
  | error e =>
      rw [hend] at hstatus
      cases hstatus
  | ok result =>
      rw [hend] at hrun hstatus
      have hlease : LeasesAgree Core.Sample.context whole.1 := by
        intro key authority hmem
        have hanswer := Program.mem_runWith hmem
        cases hanswer
        rfl
      have hwritten : ∀ w ∈ invokedRecords whole.1, w.2 = .fulfilled () := by
        intro w hw
        have hrecords : invokedRecords whole.1 = [((invokedRecords whole.1).head?.getD
            (Sample.otherRefusal, .rejected)).1].map fun event => (event, .fulfilled ()) := rfl
        rw [hrecords] at hw
        rw [List.mem_singleton.mp hw]
      obtain ⟨explanation, gate, hexplained, -, -, hcode, -, hmem, -⟩ :=
        denied_call_explained Sample.kernel Core.Sample.context Sample.call
          (acceptedEvents whole.1 ++ [Sample.otherRefusal]) hrun (Except.ok.inj hstatus) rfl hlease hwritten rfl
      have hdecision : ((explainRefusal Sample.call.id
          (acceptedEvents whole.1 ++ [Sample.otherRefusal])).bind fun e =>
            e.decision.map fun record => record.reason) = some (some ("no_matching_grant" : JsString)) := rfl
      rw [hexplained] at hdecision
      exact ⟨_, result, _, explanation, hrun, List.getLast?_concat .., hexplained, hcode, hmem,
        hdecision⟩

end SharedOS.Kernel
