/-
SharedOS.Kernel.Spending — what the operations of the kernel spend, and how the trail has it.

A use of a bounded grant is spent by the one decision an operation is made for, and by nothing else:
not by a load, not by discovery, not by reading a card or a reach. So beside the decision's record
an operation leaves nothing of the kind, and `uses_spent_as_recorded` reads off that record, for
each of the operations, which grant was spent and that no other was.

The argument is one of sequencing. A part is idle where it neither decides nor spends, and a
decision between idle parts is the decision of the whole (`Idle.bind_spending`,
`Spending.bind_idle`). It is made of programs over any interface from which the kernel's own events
can be read (`seen`).
-/
import SharedOS.Kernel.AgentCard
import SharedOS.Kernel.ToolListing
import SharedOS.Kernel.UsageLedger

namespace SharedOS.Kernel

open SharedOS.Foundation SharedOS.Contracts SharedOS.Core

/-! ## Idle parts -/

/-- The records of decisions, with what the sink answered. -/
def checkedRecords (t : KernelTrace) : List (AuditEvent × Settled Unit) :=
  (records t).filter fun w => w.1.type = .authorizationChecked

/-- Nothing was decided and nothing spent. -/
def Untouched (t : KernelTrace) : Prop := checkedRecords t = [] ∧ spent t = []

@[simp] theorem checkedRecords_append (t u : KernelTrace) :
    checkedRecords (t ++ u) = checkedRecords t ++ checkedRecords u := by
  unfold checkedRecords
  rw [records_append, List.filter_append]

@[simp] theorem spent_append (t u : KernelTrace) : spent (t ++ u) = spent t ++ spent u :=
  List.filterMap_append

theorem untouched_nil : Untouched [] := ⟨rfl, rfl⟩

/-- The second trace decides and spends what the first does. -/
def SameAccount (t u : KernelTrace) : Prop :=
  checkedRecords u = checkedRecords t ∧ spent u = spent t

theorem Untouched.before {t u : KernelTrace} (ht : Untouched t) : SameAccount u (t ++ u) := by
  constructor
  · rw [checkedRecords_append, ht.1, List.nil_append]
  · rw [spent_append, ht.2, List.nil_append]

theorem Untouched.after {t u : KernelTrace} (hu : Untouched u) : SameAccount t (t ++ u) := by
  constructor
  · rw [checkedRecords_append, hu.1, List.append_nil]
  · rw [spent_append, hu.2, List.append_nil]

theorem Untouched.append {t u : KernelTrace} (ht : Untouched t) (hu : Untouched u) :
    Untouched (t ++ u) :=
  ⟨ht.before.1.trans hu.1, ht.before.2.trans hu.2⟩

/-- Neither a use nor the record of a decision. -/
def Neutral (o : KernelOp) : Prop := Sparing o ∧ ¬ WritesOf .authorizationChecked o

theorem resourceInvoked_unchecked : AuditEventType.resourceInvoked ≠ .authorizationChecked := nofun

theorem messageSent_unchecked : AuditEventType.messageSent ≠ .authorizationChecked := nofun

theorem toolCatalogListed_unchecked : AuditEventType.toolCatalogListed ≠ .authorizationChecked :=
  nofun

theorem untouched_of_neutral {t : KernelTrace} (h : ∀ e ∈ t, Neutral e.1) : Untouched t := by
  constructor
  · apply List.filter_eq_nil_iff.mpr
    intro w hw
    obtain ⟨⟨o, x⟩, hmem, hrecord⟩ := List.mem_filterMap.mp hw
    cases o with
    | record event =>
        cases Option.some.inj hrecord
        intro htype
        exact (h _ hmem).2 (of_decide_eq_true htype : event.type = .authorizationChecked)
    | _ => cases hrecord
  · apply List.filterMap_eq_nil_iff.mpr
    intro e he
    exact consumedBy_sparing (h e he).1

section Idle

variable {Op : Type} {Ans : Op → Type} {ε α β : Type} {seen : Event Ans → Option KernelEvent}

/-- Nothing is decided and nothing spent in the part, however it ends. -/
def Idle (seen : Event Ans → Option KernelEvent) (p : Program Op Ans ε α) : Prop :=
  ∀ t r, Program.Finishes p t r → Untouched (t.filterMap seen)

theorem idle_of_uses {p : Program Op Ans ε α}
    (h : Program.Uses (fun o => ∀ x e, seen ⟨o, x⟩ = some e → Neutral e.1) p) : Idle seen p := by
  intro t r hrun
  apply untouched_of_neutral
  intro e he
  obtain ⟨⟨o, x⟩, hmem, hseen⟩ := List.mem_filterMap.mp he
  exact h.trace hrun _ hmem x e hseen

theorem idle_done (a : α) : Idle seen (.done a : Program Op Ans ε α) := by
  intro t r hrun
  obtain ⟨rfl, -⟩ := Program.finishes_done.mp hrun
  exact untouched_nil

theorem idle_throw (e : ε) : Idle seen (.throw e : Program Op Ans ε α) := by
  intro t r hrun
  obtain ⟨rfl, -⟩ := Program.finishes_throw.mp hrun
  exact untouched_nil

theorem Idle.bind {p : Program Op Ans ε α} {f : α → Program Op Ans ε β} (hp : Idle seen p)
    (hf : ∀ a, Idle seen (f a)) : Idle seen (p >>= f) := by
  intro t r hrun
  rcases Program.finishes_bind.mp hrun with ⟨e, rfl, hthrow⟩ | ⟨a, t₁, t₂, rfl, hfirst, hrest⟩
  · exact hp t _ hthrow
  · rw [List.filterMap_append]
    exact (hp t₁ _ hfirst).append (hf a t₂ r hrest)

end Idle

/-! ## What a stretch of an operation decided and spent -/

/-- No use was spent, and what was decided, if anything, is recorded as a denial. -/
inductive Unspent (t : KernelTrace) : Prop
  | undecided (hchecked : checkedRecords t = []) (hspent : spent t = [])
  | denied {event : AuditEvent} {answer : Settled Unit}
      (hchecked : checkedRecords t = [(event, answer)]) (houtcome : event.outcome = .denied)
      (hspent : spent t = [])

theorem Unspent.congr {t u : KernelTrace} (h : Unspent t) (hsame : SameAccount t u) :
    Unspent u := by
  cases h with
  | undecided hnone hfree => exact .undecided (hsame.1.trans hnone) (hsame.2.trans hfree)
  | denied hone houtcome hfree =>
      exact .denied (hsame.1.trans hone) houtcome (hsame.2.trans hfree)

theorem Untouched.unspent {t : KernelTrace} (h : Untouched t) : Unspent t := .undecided h.1 h.2

variable [HostPlatform]

/-- At most one decision was taken, on this authority. An allow spends the one use of the grant its
record names, where uses are consumed and the grant is bounded. -/
inductive Spends (authority : ResolvedAuthority) (consumes : Bool) (t : KernelTrace) : Prop
  | unspent (h : Unspent t)
  | allowed {event : AuditEvent} {answer : Settled Unit} {grant : CapabilityGrant}
      {request : CapabilityRequirement} {consume : Bool} {operationId : Option JsString}
      {explanation : Option AuthorizationExplanation}
      (hchecked : checkedRecords t = [(event, answer)])
      (hrecord : event.toAuditEventInput = authorizationChecked request (allow grant.id) consume
        (some authority.snapshot.hash) operationId explanation)
      (hgrant : grant ∈ authority.grants)
      (hnamespace : grant.namespaceId = authority.context.namespaceId)
      (hcovers : ∃ c ∈ grant.capabilities, capabilityMatches c request authority.context = true)
      (hconsumes : consume = true → consumes = true)
      (hspent : spent t = if consume = true ∧ grant.constraints.maxUses.isSome then
        [(grant.namespaceId, grant.id)] else [])

theorem Spends.congr {authority : ResolvedAuthority} {consumes : Bool} {t u : KernelTrace}
    (h : Spends authority consumes t) (hsame : SameAccount t u) : Spends authority consumes u := by
  cases h with
  | unspent h => exact .unspent (h.congr hsame)
  | allowed hone hrecord hgrant hnamespace hcovers hconsumes huse =>
      exact .allowed (hsame.1.trans hone) hrecord hgrant hnamespace hcovers hconsumes
        (hsame.2.trans huse)

section Rules

variable {Op : Type} {Ans : Op → Type} {ε α β : Type} {seen : Event Ans → Option KernelEvent}
  {authority : ResolvedAuthority} {consumes : Bool}

/-- Whatever the part decides and spends, it does on this authority. -/
def Spending (seen : Event Ans → Option KernelEvent) (authority : ResolvedAuthority)
    (consumes : Bool) (p : Program Op Ans ε α) : Prop :=
  ∀ t r, Program.Finishes p t r → Spends authority consumes (t.filterMap seen)

theorem Idle.spending {p : Program Op Ans ε α} (h : Idle seen p) :
    Spending seen authority consumes p := by
  intro t r hrun
  exact .unspent (h t r hrun).unspent

/-- **An idle part first.** -/
theorem Idle.bind_spending {p : Program Op Ans ε α} {f : α → Program Op Ans ε β}
    (hp : Idle seen p) (hf : ∀ a, Spending seen authority consumes (f a)) :
    Spending seen authority consumes (p >>= f) := by
  intro t r hrun
  rcases Program.finishes_bind.mp hrun with ⟨e, rfl, hthrow⟩ | ⟨a, t₁, t₂, rfl, hfirst, hrest⟩
  · exact hp.spending t _ hthrow
  · rw [List.filterMap_append]
    exact (hf a t₂ r hrest).congr (hp t₁ _ hfirst).before

/-- **An idle part last.** -/
theorem Spending.bind_idle {p : Program Op Ans ε α} {f : α → Program Op Ans ε β}
    (hp : Spending seen authority consumes p) (hf : ∀ a, Idle seen (f a)) :
    Spending seen authority consumes (p >>= f) := by
  intro t r hrun
  rcases Program.finishes_bind.mp hrun with ⟨e, rfl, hthrow⟩ | ⟨a, t₁, t₂, rfl, hfirst, hrest⟩
  · exact hp t _ hthrow
  · rw [List.filterMap_append]
    exact (hp t₁ _ hfirst).congr (hf a t₂ r hrest).after

end Rules

/-! ## The operations that decide, and do nothing else -/

/-- `authorize`. -/
def SharedOSKernel.authorize (kernel : SharedOSKernel) (context : AccessContext)
    (request : CapabilityRequirement) : KernelM AuthorizationDecision := do
  throwIfAborted
  match ← resolveTurnAuthority kernel context with
  | .unavailable code _ => denyUnavailableAuthority context request code false
  | .resolved authority => decideAndRecord kernel context authority request false none

/-- `admitTurn`. -/
def SharedOSKernel.admitTurn (kernel : SharedOSKernel) (context : AccessContext)
    (agent : Address) : KernelM AuthorizationDecision := do
  throwIfAborted
  let request := admitTurnRequest context agent
  match ← resolveTurnAuthority kernel context with
  | .unavailable code _ => denyUnavailableAuthority context request code true
  | .resolved authority => decideAndRecord kernel context authority request true none

/-- `reach`. -/
def SharedOSKernel.reach (kernel : SharedOSKernel) (context : AccessContext) :
    KernelM ReachResult := do
  throwIfAborted
  match ← resolveTurnAuthority kernel context with
  | .unavailable .. => pure (.unavailable .authorityUnavailable)
  | .resolved authority => SharedOS.Core.reach kernel.authorizer authority (some context.now)

/-- A whole operation, decided on the authority it was run on. -/
inductive SpentAsRecorded (kernel : SharedOSKernel) (context : AccessContext) (consumes : Bool)
    (t : KernelTrace) : Prop
  | unspent (h : Unspent t)
  | decided {authority : ResolvedAuthority}
      (hturn : Ran (resolveTurnAuthority kernel context) t (.resolved authority))
      (h : Spends authority consumes t)

section Whole

variable {Op : Type} {Ans : Op → Type} {ε α β : Type} {seen : Event Ans → Option KernelEvent}
  {kernel : SharedOSKernel} {context : AccessContext} {consumes : Bool}

/-- Every whole run of the program is recorded so. -/
def RecordsSpending (seen : Event Ans → Option KernelEvent) (kernel : SharedOSKernel)
    (context : AccessContext) (consumes : Bool) (p : Program Op Ans ε α) : Prop :=
  ∀ t r, Program.Finishes p t r → SpentAsRecorded kernel context consumes (t.filterMap seen)

theorem Idle.records {p : Program Op Ans ε α} (h : Idle seen p) :
    RecordsSpending seen kernel context consumes p := by
  intro t r hrun
  exact .unspent (h t r hrun).unspent

/-- What precedes the authority, and is idle. -/
theorem Idle.bind_records {p : Program Op Ans ε α} {f : α → Program Op Ans ε β}
    (hp : Idle seen p) (hf : ∀ a, RecordsSpending seen kernel context consumes (f a)) :
    RecordsSpending seen kernel context consumes (p >>= f) := by
  intro t r hrun
  rcases Program.finishes_bind.mp hrun with ⟨e, rfl, hthrow⟩ | ⟨a, t₁, t₂, rfl, hfirst, hrest⟩
  · exact .unspent (hp t _ hthrow).unspent
  · rw [List.filterMap_append]
    have hsame := (hp t₁ _ hfirst).before (u := t₂.filterMap seen)
    cases hf a t₂ r hrest with
    | unspent h => exact .unspent (h.congr hsame)
    | decided hturn h => exact .decided (hturn.prepend _) (h.congr hsame)

/-- **The authority, and what is decided on it.** -/
theorem records_of_turn {p : Program Op Ans ε AuthorityResolution}
    {f : AuthorityResolution → Program Op Ans ε α}
    (hp : ∀ t a, Program.Finishes p t (.ok a) →
      Program.Finishes (resolveTurnAuthority kernel context) (t.filterMap seen) (.ok a))
    (hidle : Idle seen p)
    (hunavailable : ∀ code detail t r, Program.Finishes (f (.unavailable code detail)) t r →
      Unspent (t.filterMap seen))
    (hresolved : ∀ authority, Spending seen authority consumes (f (.resolved authority))) :
    RecordsSpending seen kernel context consumes (p >>= f) := by
  intro t r hrun
  rcases Program.finishes_bind.mp hrun with
    ⟨e, rfl, hthrow⟩ | ⟨resolution, t₁, t₂, rfl, hfirst, hrest⟩
  · exact .unspent (hidle t _ hthrow).unspent
  · rw [List.filterMap_append]
    have hsame := (hidle t₁ _ hfirst).before (u := t₂.filterMap seen)
    cases resolution with
    | unavailable code detail =>
        exact .unspent ((hunavailable code detail t₂ r hrest).congr hsame)
    | resolved authority =>
        have hturn := (Ran.of_finishes (hp t₁ _ hfirst)).append (t₂.filterMap seen)
        exact .decided hturn ((hresolved authority t₂ r hrest).congr hsame)

omit [HostPlatform] in
/-- What is said of a part of the kernel is said of it inside an operation. -/
theorem Idle.embed {wrap : KernelOp → Op} {unwrap : ∀ o, Ans (wrap o) → o.Answer}
    {fail : KernelError → ε} (hseen : ∀ o x, seen ⟨wrap o, x⟩ = some ⟨o, unwrap o x⟩)
    {p : KernelM α} (h : Idle some p) : Idle seen (p.embed wrap unwrap fail) := by
  intro u r' hrun
  obtain ⟨t, r, hrun', hcarried, -⟩ := Program.finishes_embed hrun
  rw [hcarried.filterMap (f := some) hseen]
  exact h t r hrun'

theorem Spending.embed {wrap : KernelOp → Op} {unwrap : ∀ o, Ans (wrap o) → o.Answer}
    {fail : KernelError → ε} (hseen : ∀ o x, seen ⟨wrap o, x⟩ = some ⟨o, unwrap o x⟩)
    {authority : ResolvedAuthority} {p : KernelM α} (h : Spending some authority consumes p) :
    Spending seen authority consumes (p.embed wrap unwrap fail) := by
  intro u r' hrun
  obtain ⟨t, r, hrun', hcarried, -⟩ := Program.finishes_embed hrun
  rw [hcarried.filterMap (f := some) hseen]
  exact h t r hrun'

end Whole

/-! ## The idle parts of the kernel -/

section Parts

variable {kernel : SharedOSKernel} {context : AccessContext} {authority : ResolvedAuthority}

omit [HostPlatform] in
theorem neutral_ask {o : KernelOp} (h : Neutral o) : Program.Uses Neutral (ask o) :=
  ⟨h, fun _ => trivial⟩

omit [HostPlatform] in
theorem neutral_throwIfAborted : Program.Uses Neutral throwIfAborted := by
  unfold throwIfAborted
  refine Program.Uses.bind (neutral_ask ⟨trivial, not_false⟩) fun aborted => ?_
  cases aborted
  · exact Program.uses_done _
  · exact Program.uses_throw _

omit [HostPlatform] in
theorem neutral_reportProviderError (kernel : SharedOSKernel) (context : AccessContext)
    (reasonCode : JsString) (operation : ProviderErrorOperation) :
    Program.Uses Neutral (reportProviderError kernel context reasonCode operation) := by
  unfold reportProviderError
  split
  · exact neutral_ask ⟨trivial, not_false⟩
  · exact Program.uses_done _

omit [HostPlatform] in
theorem neutral_loadHostPolicy : Program.Uses Neutral (loadHostPolicy kernel context) := by
  have houtage : Program.Uses Neutral (reportPolicyOutage kernel context) :=
    neutral_reportProviderError ..
  unfold loadHostPolicy
  split
  · exact Program.uses_done _
  refine Program.Uses.bind (neutral_ask ⟨trivial, not_false⟩) fun answer => ?_
  split
  · exact neutral_throwIfAborted.bind fun _ => houtage.bind fun _ => Program.uses_done _
  · exact houtage.bind fun _ => Program.uses_done _
  · split
    · exact houtage.bind fun _ => Program.uses_done _
    · exact Program.uses_done _

theorem neutral_resolveGrants : Program.Uses Neutral (resolveGrants context) := by
  unfold resolveGrants
  refine Program.Uses.bind (neutral_ask ⟨trivial, not_false⟩) fun answer => ?_
  split
  · exact neutral_throwIfAborted.bind fun _ => Program.uses_done _
  · exact Program.uses_done _

omit [HostPlatform] in
/-- A record of another kind, whose failure refuses what it was written before. -/
theorem neutral_stampAndRecord {input : AuditEventInput}
    (htype : input.type ≠ .authorizationChecked) :
    Program.Uses Neutral (stampEvent context input >>= recordDecision) := by
  refine ⟨⟨trivial, not_false⟩, fun id => ⟨⟨trivial, htype⟩, fun answer => ?_⟩⟩
  cases answer <;> trivial

theorem neutral_resolveTurnAuthority :
    Program.Uses Neutral (resolveTurnAuthority kernel context) := by
  unfold resolveTurnAuthority
  refine Program.Uses.bind (neutral_ask ⟨trivial, not_false⟩) fun leased => ?_
  cases leased with
  | some resolution => exact Program.uses_done _
  | none =>
      show Program.Uses Neutral (loadAuthority kernel context)
      unfold loadAuthority
      apply neutral_resolveGrants.bind
      intro resolved
      apply neutral_loadHostPolicy.bind
      intro hostPolicy
      dsimp only
      rw [← Program.bind_assoc]
      refine Program.Uses.bind (neutral_stampAndRecord ?_) fun _ => Program.uses_done _
      rw [authorityResolved_type]
      exact nofun

theorem neutral_resolveToolRegistry :
    Program.Uses Neutral (resolveToolRegistry kernel context) := by
  have haborted : Program.Uses Neutral catalogPortsOf.aborted := neutral_ask ⟨trivial, not_false⟩
  have hproviders : ∀ providers registry, Program.Uses Neutral
      (listProviders catalogPortsOf context registry providers) := by
    intro providers
    induction providers with
    | nil => exact fun _ => Program.uses_done _
    | cons provider rest ih =>
        intro registry
        unfold listProviders
        apply haborted.bind
        intro aborted
        split
        · exact Program.uses_done _
        apply (show Program.Uses Neutral (catalogPortsOf.listTools provider context) from
          neutral_ask ⟨trivial, not_false⟩).bind
        intro answer
        split
        · apply haborted.bind
          intro aborted
          split <;> exact Program.uses_done _
        · exact Program.uses_done _
        · split
          · exact Program.uses_done _
          · exact ih _
  unfold resolveToolRegistry
  refine Program.Uses.bind (neutral_ask ⟨trivial, not_false⟩) fun leased => ?_
  split
  · exact Program.uses_done _
  · unfold deriveToolRegistry
    split
    · exact Program.uses_done _
    · exact hproviders _ _

omit [HostPlatform] in
/-- Without consumption the authorizer spends nothing. -/
theorem neutral_ports (kernel : SharedOSKernel) : PortsUse Neutral kernel.authorizer false := by
  apply portsUse_authorizer
  intro o ho
  refine ⟨sparing_of_authorizerOp ho, ?_⟩
  cases o with
  | record event => exact ho.elim
  | _ => exact not_false

omit [HostPlatform] in
theorem neutral_recordOutcome {event : AuditEvent} (htype : event.type ≠ .authorizationChecked) :
    Program.Uses Neutral (recordOutcome kernel event) := by
  unfold recordOutcome
  refine Program.Uses.bind (neutral_ask ⟨trivial, htype⟩) fun answer => ?_
  cases answer with
  | fulfilled => exact Program.uses_done _
  | rejected =>
      dsimp only
      split
      · exact neutral_ask ⟨trivial, not_false⟩
      · exact Program.uses_done _

omit [HostPlatform] in
/-- The record about an operation, stamped and written. -/
theorem neutral_recordAbout {input : AuditEventInput} (htype : input.type ≠ .authorizationChecked) :
    Program.Uses Neutral (recordAbout kernel context input) :=
  ⟨⟨trivial, not_false⟩, fun _ => neutral_recordOutcome htype⟩

theorem neutral_recordToolInvoked {source : AuditSource} {callId tool : JsString}
    {outcome : AuditOutcome} {reasonCode : Option JsString} {detail : ToolResultAuditDetail} :
    Program.Uses Neutral
      (recordToolInvoked kernel context source callId tool outcome reasonCode detail) := by
  refine ⟨⟨trivial, not_false⟩, fun served => ⟨⟨trivial, not_false⟩, fun id => ?_⟩⟩
  exact neutral_recordOutcome nofun

theorem neutral_refuse {call : ToolCall} {status : ProtocolError → ToolOutcome}
    {code message : JsString} {detail : ToolResultAuditDetail} :
    Program.Uses Neutral (refuse kernel context call status code message detail) := by
  unfold refuse
  exact neutral_recordToolInvoked.bind fun _ => Program.uses_done _

/-- A handler, and what comes of it. -/
theorem neutral_runHandler (c : AuthorizedCall) : Program.Uses Neutral (runHandler kernel c) := by
  have hport : Program.Uses Neutral (invokePort kernel (handlerPort kernel c)) := by
    unfold invokePort
    apply neutral_throwIfAborted.bind
    intro _
    refine Program.Uses.bind (neutral_ask ⟨trivial, not_false⟩) fun answer => ?_
    cases answer with
    | returned candidate => exact Program.uses_done _
    | threwAuditUnavailable =>
        exact neutral_recordToolInvoked.bind fun _ => Program.uses_throw _
    | threw =>
        refine Program.Uses.bind (neutral_ask ⟨trivial, not_false⟩) fun aborted => ?_
        split
        · exact neutral_recordToolInvoked.bind fun _ => Program.uses_throw _
        · exact (neutral_reportProviderError ..).bind fun _ => Program.uses_done _
  unfold runHandler
  apply hport.bind
  intro result
  refine Program.Uses.bind (neutral_ask ⟨trivial, not_false⟩) fun cause => ?_
  exact neutral_recordToolInvoked.bind fun _ => Program.uses_done _

/-! ## The decision -/

omit [HostPlatform] in
/-- The record of a decision, whatever the sink answers. -/
theorem finishes_recordChecked {request : CapabilityRequirement} {decision : AuthorizationDecision}
    {consume : Bool} {authorityHash operationId : Option JsString}
    {explanation : Option AuthorizationExplanation} {t : KernelTrace} {r : Except KernelError Unit}
    (h : Program.Finishes (recordAuthorizationDecision context request decision consume
      authorityHash operationId explanation) t r) :
    spent t = [] ∧ ∃ event answer, checkedRecords t = [(event, answer)] ∧
      event.toAuditEventInput = authorizationChecked request decision consume authorityHash
        operationId explanation := by
  unfold recordAuthorizationDecision stampEvent recordDecision ask at h
  obtain ⟨id, u, rfl, hwrite⟩ := Program.finishes_ask.mp h
  obtain ⟨answer, v, rfl, hend⟩ := Program.finishes_ask.mp hwrite
  have hempty : v = [] := by
    cases answer with
    | fulfilled => exact (Program.finishes_done.mp hend).1
    | rejected => exact (Program.finishes_throw.mp hend).1
  subst hempty
  exact ⟨rfl, _, answer, rfl, rfl⟩

omit [HostPlatform] in
theorem unspent_of_denial {request : CapabilityRequirement} {decision : AuthorizationDecision}
    {consume : Bool} {authorityHash operationId : Option JsString}
    {explanation : Option AuthorizationExplanation} {t : KernelTrace} {r : Except KernelError Unit}
    (hdenied : decision.allowed = false)
    (h : Program.Finishes (recordAuthorizationDecision context request decision consume
      authorityHash operationId explanation) t r) : Unspent t := by
  obtain ⟨hspent, event, answer, hchecked, hinput⟩ := finishes_recordChecked h
  refine .denied hchecked ?_ hspent
  rw [hinput]
  exact if_neg (by rw [hdenied]; exact Bool.false_ne_true)

omit [HostPlatform] in
/-- What a decision has spent, by its verdict. -/
theorem Settles.verdict {covers : Capability → Bool} {consume : Bool}
    {uses : List (JsString × JsString)} {decision : AuthorizationDecision}
    (h : Settles authority covers consume uses decision) :
    (decision.allowed = false ∧ uses = []) ∨
      ∃ grant ∈ authority.grants, decision = allow grant.id ∧
        grant.namespaceId = authority.context.namespaceId ∧
        (∃ c ∈ grant.capabilities, covers c = true) ∧
        uses = if consume = true ∧ grant.constraints.maxUses.isSome then
          [(grant.namespaceId, grant.id)] else [] := by
  cases h with
  | denied hdenied => exact .inl ⟨hdenied, rfl⟩
  | @allowed grant hgrant hnamespace hcovers =>
      exact .inr ⟨grant, hgrant, rfl, hnamespace, hcovers, rfl⟩

/-- **A decision and its record**: what is spent is spent of the grant the record names. -/
theorem spending_decideAndRecord {request : CapabilityRequirement} {consume consumes : Bool}
    {operationId : Option JsString} (hconsumes : consume = true → consumes = true) :
    Spending some authority consumes
      (decideAndRecord kernel context authority request consume operationId) := by
  intro t r hrun
  rw [List.filterMap_some]
  have hquiet : Quiet (authorize kernel.authorizer authority request consume (some context.now)) :=
    quiet_decideOnGrants ..
  have hwp : Program.wp (AsksItsUse authority)
      (authorize kernel.authorizer authority request consume (some context.now))
      (Decides authority (capabilityMatches · request authority.context) consume) [] :=
    wp_decideOnGrants rfl
  have hsettles := (Program.wp_sound hwp).2
  unfold decideAndRecord at hrun
  rcases Program.finishes_bind.mp hrun with
    ⟨e, rfl, hthrow⟩ | ⟨explained, t₁, t₂, rfl, hdecide, hrest⟩
  · have hspent : spent t = [] := hsettles t _ hthrow
    refine .unspent (.undecided ?_ hspent)
    unfold checkedRecords
    rw [records_silent (hquiet.trace hthrow)]
    rfl
  have hsettled : Settles authority (capabilityMatches · request authority.context) consume
      (spent t₁) explained.decision := hsettles t₁ _ hdecide
  have hdecided : checkedRecords t₁ = [] := by
    unfold checkedRecords
    rw [records_silent (hquiet.trace hdecide)]
    rfl
  -- the sink may refuse the record, and then the use is gone all the same
  have hrecorded : ∀ u r', Program.Finishes (recordAuthorizationDecision context request
      explained.decision consume (some authority.snapshot.hash) operationId
      explained.explanation) u r' → Spends authority consumes (t₁ ++ u) := by
    intro u r' hrecord
    rcases hsettled.verdict with
      ⟨hdenied, hfree⟩ | ⟨grant, hgrant, hallow, hnamespace, hcovers, huse⟩
    · exact .unspent ((unspent_of_denial hdenied hrecord).congr
        (Untouched.before ⟨hdecided, hfree⟩))
    · obtain ⟨hfree, event, answer, hchecked, hinput⟩ := finishes_recordChecked hrecord
      rw [hallow] at hinput
      have hone : checkedRecords (t₁ ++ u) = [(event, answer)] := by
        rw [checkedRecords_append, hdecided, List.nil_append, hchecked]
      refine .allowed hone hinput hgrant hnamespace hcovers hconsumes ?_
      rw [spent_append, hfree, List.append_nil, huse]
  rcases Program.finishes_bind.mp hrest with ⟨e, rfl, hrefused⟩ | ⟨_, t₃, t₄, rfl, hrecord, hdone⟩
  · exact hrecorded t₂ _ hrefused
  · obtain ⟨rfl, -⟩ := Program.finishes_done.mp hdone
    rw [List.append_nil]
    exact hrecorded t₃ _ hrecord

omit [HostPlatform] in
theorem idle_of_neutral {α : Type} {p : KernelM α} (h : Program.Uses Neutral p) : Idle some p := by
  apply idle_of_uses
  apply h.mono
  intro o ho x e he
  obtain rfl := Option.some.inj he
  exact ho

/-! ## A tool call -/

variable {call : ToolCall}

theorem spending_decideCall {handler : ToolHandler} {parsedCall : ToolCall}
    {requirement : CapabilityRequirement} :
    Spending some authority true
      (decideCall kernel context call authority handler parsedCall requirement) := by
  unfold decideCall
  split
  -- a crossing is decided for its record alone, and consumes nothing
  · apply (spending_decideAndRecord fun _ => rfl).bind_idle
    intro crossing
    exact idle_of_neutral neutral_refuse
  split
  · exact (idle_of_neutral neutral_refuse).spending
  · apply (spending_decideAndRecord fun _ => rfl).bind_idle
    intro decision
    split
    · exact idle_of_neutral neutral_refuse
    · exact idle_of_neutral (neutral_runHandler _)

theorem spending_parseCall {handler : ToolHandler} :
    Spending some authority true (parseCall kernel context call authority handler) := by
  have hrefuse : ∀ {code message}, Spending some authority true
      (reportCallError kernel context call .tool code >>= fun _ =>
        refuse kernel context call .failed code message {}) := by
    intro code message
    apply Idle.spending
    apply idle_of_neutral
    exact (neutral_reportProviderError ..).bind fun _ => neutral_refuse
  unfold parseCall parseCallThen
  refine Idle.bind_spending (idle_of_neutral (neutral_ask ⟨trivial, not_false⟩)) fun answer => ?_
  dsimp only
  split
  · exact hrefuse
  · unfold resolveCall
    dsimp only
    split
    · refine Idle.bind_spending (idle_of_neutral (neutral_ask ⟨trivial, not_false⟩))
        fun answer => ?_
      cases answer with
      | rejected => exact hrefuse
      | fulfilled resolved => exact spending_decideCall
    · exact spending_decideCall

theorem spending_discoverTool {handler : ToolHandler} :
    Spending some authority true (discoverTool kernel context call authority handler) := by
  unfold discoverTool discoverToolThen
  refine Idle.bind_spending (idle_of_neutral (uses_decideOnGrants (neutral_ports kernel) ..))
    fun discoverable => ?_
  split
  -- what discovery refuses is recorded as the call's own denial
  · next hrefused =>
      apply Spending.bind_idle
      · intro t r hrun
        rw [List.filterMap_some]
        exact .unspent (unspent_of_denial (by simpa using hrefused) hrun)
      · intro _
        exact idle_of_neutral neutral_refuse
  · exact spending_parseCall

theorem spending_findCatalog :
    Spending some authority true (findCatalog kernel context call authority) := by
  unfold findCatalog findCatalogThen
  refine Idle.bind_spending (idle_of_neutral neutral_resolveToolRegistry) fun outcome => ?_
  cases outcome with
  | error e =>
      apply Idle.spending
      apply idle_of_neutral
      apply neutral_throwIfAborted.bind
      intro _
      exact (neutral_reportProviderError ..).bind fun _ => neutral_refuse
  | ok tools =>
      show Spending some authority true (findTool kernel context call authority tools)
      unfold findTool findToolThen
      split
      · exact (idle_of_neutral neutral_refuse).spending
      · split
        · exact (idle_of_neutral neutral_refuse).spending
        · exact spending_discoverTool

end Parts

/-! ## The operations -/

section Records

variable {kernel : SharedOSKernel} {context : AccessContext} {ports : OperationPorts}

/-- In the kernel's own interface its events are read as they are. -/
theorem records_of_kernelTurn {α : Type} {consumes : Bool} {f : AuthorityResolution → KernelM α}
    (hunavailable : ∀ code detail t r, Program.Finishes (f (.unavailable code detail)) t r →
      Unspent t)
    (hresolved : ∀ authority, Spending some authority consumes (f (.resolved authority))) :
    RecordsSpending some kernel context consumes (resolveTurnAuthority kernel context >>= f) := by
  apply records_of_turn
  · intro t a hrun
    rwa [List.filterMap_some]
  · exact idle_of_neutral neutral_resolveTurnAuthority
  · intro code detail t r hrun
    rw [List.filterMap_some]
    exact hunavailable code detail t r hrun
  · exact hresolved

omit [HostPlatform] in
theorem unspent_denyUnavailableAuthority {request : CapabilityRequirement}
    {code : AuthorityUnavailableCode} {consume : Bool} {t : KernelTrace}
    {r : Except KernelError AuthorizationDecision}
    (h : Program.Finishes (denyUnavailableAuthority context request code consume) t r) :
    Unspent t := by
  unfold denyUnavailableAuthority at h
  rcases Program.finishes_bind.mp h with ⟨e, rfl, hthrow⟩ | ⟨_, t₁, t₂, rfl, hrecord, hdone⟩
  · exact unspent_of_denial rfl hthrow
  · obtain ⟨rfl, -⟩ := Program.finishes_done.mp hdone
    rw [List.append_nil]
    exact unspent_of_denial rfl hrecord

theorem records_authorize (request : CapabilityRequirement) :
    RecordsSpending some kernel context false (kernel.authorize context request) := by
  unfold SharedOSKernel.authorize
  refine Idle.bind_records (idle_of_neutral neutral_throwIfAborted) fun _ => ?_
  apply records_of_kernelTurn
  · exact fun _ _ _ _ hrun => unspent_denyUnavailableAuthority hrun
  · exact fun _ => spending_decideAndRecord nofun

theorem records_admitTurn (agent : Address) :
    RecordsSpending some kernel context true (kernel.admitTurn context agent) := by
  unfold SharedOSKernel.admitTurn
  refine Idle.bind_records (idle_of_neutral neutral_throwIfAborted) fun _ => ?_
  apply records_of_kernelTurn
  · exact fun _ _ _ _ hrun => unspent_denyUnavailableAuthority hrun
  · exact fun _ => spending_decideAndRecord fun _ => rfl

/-- The other views are looked at without spending. -/
theorem neutral_servableCardViews {authority : ResolvedAuthority} {subject : Address}
    {refused : AgentCardView} :
    Program.Uses Neutral (servableCardViews kernel context authority subject refused) := by
  unfold servableCardViews
  induction agentCardViews with
  | nil => exact Program.uses_done _
  | cons view rest ih =>
      unfold servableCardViewsOf
      apply neutral_throwIfAborted.bind
      intro _
      split
      · exact ih
      · apply (uses_decideOnGrants (neutral_ports kernel) ..).bind
        intro explained
        exact ih.bind fun _ => Program.uses_done _

/-- A card is read on one decision, its subject's reach without another. -/
theorem records_readAgentCard (subject : Address) (view : AgentCardView) :
    RecordsSpending some kernel context false (readAgentCard kernel context subject view) := by
  unfold readAgentCard
  refine Idle.bind_records (idle_of_neutral neutral_throwIfAborted) fun _ => ?_
  cases subject.schema with
  | none => exact (idle_done _).records
  | some subject =>
      apply records_of_kernelTurn
      · intro code detail t r hrun
        rcases Program.finishes_bind.mp hrun with ⟨e, rfl, hthrow⟩ | ⟨_, t₁, t₂, rfl, hdeny, hdone⟩
        · exact unspent_denyUnavailableAuthority hthrow
        · obtain ⟨rfl, -⟩ := Program.finishes_done.mp hdone
          rw [List.append_nil]
          exact unspent_denyUnavailableAuthority hdeny
      · intro reader
        dsimp only
        refine Spending.bind_idle (spending_decideAndRecord nofun) fun decision => ?_
        apply idle_of_neutral
        split
        · exact neutral_servableCardViews.bind fun _ => Program.uses_done _
        split
        · exact Program.uses_done _
        -- the subject's authority is loaded for its reach, and nothing is decided on it
        · apply neutral_resolveTurnAuthority.bind
          intro resolution
          cases resolution with
          | unavailable code detail => exact Program.uses_done _
          | resolved subjectAuthority =>
              apply (uses_reach (neutral_ports kernel) ..).bind
              intro reached
              cases reached <;> exact Program.uses_done _

theorem records_invokeTool (call : ToolCall) :
    RecordsSpending some kernel context true (invokeTool kernel context call) := by
  unfold invokeTool
  refine Idle.bind_records (idle_of_neutral neutral_throwIfAborted) fun _ => ?_
  split
  · exact (idle_of_neutral neutral_refuse).records
  · apply records_of_kernelTurn
    · intro code detail t r hrun
      have hidle := idle_of_neutral neutral_refuse t r hrun
      rw [List.filterMap_some] at hidle
      exact hidle.unspent
    · exact fun _ => spending_findCatalog

theorem idle_reach : Idle some (kernel.reach context) := by
  unfold SharedOSKernel.reach
  apply idle_of_neutral
  apply neutral_throwIfAborted.bind
  intro _
  apply neutral_resolveTurnAuthority.bind
  intro resolution
  cases resolution with
  | unavailable code detail => exact Program.uses_done _
  | resolved authority => exact uses_reach (neutral_ports kernel) ..

/-! ### Over the ports of an operation -/

omit [HostPlatform] in
theorem idle_within {α : Type} {p : KernelM α} (h : Program.Uses Neutral p) :
    Idle kernelEventOf (within p) := by
  unfold within
  apply Idle.embed
  · intro o x
    rfl
  · exact idle_of_neutral h

/-- The decision of an operation. -/
theorem spending_within {authority : ResolvedAuthority} {requirement : CapabilityRequirement}
    {operationId : Option JsString} :
    Spending kernelEventOf authority true
      (within (decideAndRecord kernel context authority requirement true operationId)) := by
  unfold within
  apply Spending.embed
  · intro o x
    rfl
  · exact spending_decideAndRecord fun _ => rfl

omit [HostPlatform] in
/-- What is asked of a port is nothing of the kernel's. -/
theorem idle_enter {o : OperationOp} (ho : ∀ x, kernelEventOf ⟨o, x⟩ = none) :
    Idle kernelEventOf (enter o) := by
  apply idle_of_uses
  refine ⟨fun x e he => ?_, fun _ => trivial⟩
  rw [ho x] at he
  cases he

omit [HostPlatform] in
/-- A port that is entered, and answered for, by a record that is not of a decision. -/
theorem idle_enterPort {α : Type} {invoke : OperationM (PortAnswer α)} {port : PortHandling α}
    (hinvoke : Idle kernelEventOf invoke)
    (hport : ∀ code, Program.Uses Neutral (port.interrupted code)) :
    Idle kernelEventOf (enterPort kernel invoke port) := by
  unfold enterPort
  refine Idle.bind (idle_within neutral_throwIfAborted) fun _ => ?_
  refine Idle.bind hinvoke fun answer => ?_
  apply idle_within
  cases answer with
  | returned candidate => exact Program.uses_done _
  | threwAuditUnavailable => exact (hport _).bind fun _ => Program.uses_throw _
  | threw =>
      refine Program.Uses.bind (neutral_ask ⟨trivial, not_false⟩) fun aborted => ?_
      split
      · exact (hport _).bind fun _ => Program.uses_throw _
      · exact (neutral_reportProviderError ..).bind fun _ => Program.uses_done _

theorem records_of_withinTurn {α : Type} {consumes : Bool}
    {f : AuthorityResolution → OperationM α}
    (hunavailable : ∀ code detail, Idle kernelEventOf (f (.unavailable code detail)))
    (hresolved : ∀ authority, Spending kernelEventOf authority consumes (f (.resolved authority))) :
    RecordsSpending kernelEventOf kernel context consumes
      (within (resolveTurnAuthority kernel context) >>= f) := by
  apply records_of_turn
  · intro u resolution hrun
    obtain ⟨t, r, hrun', hcarried, hr⟩ := Program.finishes_embed hrun
    rw [hcarried.filterMap (f := some) fun _ _ => rfl, List.filterMap_some]
    cases r with
    | ok a =>
        cases hr
        exact hrun'
    | error e => cases hr
  · exact idle_within neutral_resolveTurnAuthority
  · exact fun code detail t r hrun => (hunavailable code detail t r hrun).unspent
  · exact hresolved

omit [HostPlatform] in
theorem idle_refuseResource {request : ResourceInvocationRequest}
    {status : ProtocolError → ToolOutcome} {code message : JsString} {grantId : Option JsString} :
    Idle kernelEventOf
      (within (refuseResource kernel context request status code message grantId)) := by
  apply idle_within
  unfold refuseResource recordResourceResult
  exact (neutral_recordAbout resourceInvoked_unchecked).bind fun _ => Program.uses_done _

theorem records_invokeResource (asked : ResourceInvocationRequest) :
    RecordsSpending kernelEventOf kernel context true
      (invokeResource kernel ports context asked) := by
  unfold invokeResource
  refine Idle.bind_records (idle_within neutral_throwIfAborted) fun _ => ?_
  apply records_of_withinTurn
  · exact fun _ _ => idle_refuseResource
  · intro authority
    refine Spending.bind_idle spending_within fun decision => ?_
    split
    · unfold runProvider
      split
      · exact idle_refuseResource
      · refine Idle.bind (idle_enterPort (idle_enter fun _ => rfl)
          fun _ => neutral_recordAbout resourceInvoked_unchecked) fun result => ?_
        refine Idle.bind (idle_within ?_) fun _ => idle_done _
        exact neutral_recordAbout resourceInvoked_unchecked
    · exact idle_refuseResource

omit [HostPlatform] in
theorem idle_refuseMessage {envelope : FullMessageEnvelope}
    {status : ProtocolError → DeliveryOutcome} {code message : JsString}
    {grantId operationId : Option JsString} :
    Idle kernelEventOf
      (within (refuseMessage kernel context envelope status code message grantId operationId)) := by
  apply idle_within
  unfold refuseMessage recordMessageResult
  exact (neutral_recordAbout messageSent_unchecked).bind fun _ => Program.uses_done _

theorem idle_deliverAuthorizedMessage {envelope : FullMessageEnvelope}
    {grantId operationId : Option JsString} :
    Idle kernelEventOf
      (deliverAuthorizedMessage kernel ports context envelope grantId operationId) := by
  unfold deliverAuthorizedMessage
  split
  · refine Idle.bind (idle_enterPort (idle_enter fun _ => rfl)
      fun _ => neutral_recordAbout messageSent_unchecked) fun result => ?_
    refine Idle.bind (idle_within ?_) fun _ => idle_done _
    exact neutral_recordAbout messageSent_unchecked
  · exact idle_refuseMessage

theorem records_sendMessage (candidate : Option FullMessageEnvelope) :
    RecordsSpending kernelEventOf kernel context true
      (sendMessage kernel ports context candidate) := by
  unfold sendMessage
  refine Idle.bind_records (idle_within neutral_throwIfAborted) fun _ => ?_
  split
  · exact (idle_throw _).records
  split
  · unfold decideMessage
    refine Idle.bind_records (idle_enter fun _ => rfl) fun answer => ?_
    cases answer with
    | rejected =>
        apply Idle.records
        refine Idle.bind (idle_within ?_) fun _ => idle_refuseMessage
        exact neutral_reportProviderError ..
    | fulfilled requirement =>
        apply records_of_withinTurn
        · exact fun _ _ => idle_refuseMessage
        · intro authority
          refine Spending.bind_idle spending_within fun decision => ?_
          split
          · exact idle_deliverAuthorizedMessage
          · exact idle_refuseMessage
  · exact idle_refuseMessage.records

/-! ### Over a listing -/

omit [HostPlatform] in
theorem idle_listing {α : Type} {p : KernelM α} (h : Program.Uses Neutral p) :
    Idle listingKernelEvent (listing p) := by
  unfold listing
  apply Idle.embed
  · intro o x
    rfl
  · exact idle_of_neutral h

theorem idle_recordCatalog {hash : JsString} {input : AuditEventInput}
    (htype : input.type ≠ .authorizationChecked) :
    Idle listingKernelEvent (recordCatalog context hash input) := by
  unfold recordCatalog
  -- the lease's hash is no event of the kernel's
  refine Idle.bind (idle_of_uses ⟨?_, fun _ => trivial⟩) fun _ => ?_
  · intro _ _ hseen
    cases hseen
  · exact idle_listing (neutral_stampAndRecord htype)

/-- **A listing discovers without deciding.** -/
theorem idle_listTools : Idle listingKernelEvent (listTools kernel context) := by
  have hdiscover : ∀ authority found tools, Program.Uses Neutral
      (discoverTools kernel context authority found tools) := by
    intro authority found tools
    induction tools generalizing found with
    | nil => exact Program.uses_done _
    | cons definition rest ih =>
        unfold discoverTools
        apply neutral_throwIfAborted.bind
        intro _
        split
        · exact ih _
        · exact (uses_decideOnGrants (neutral_ports kernel) ..).bind fun _ => ih _
  unfold listTools
  refine Idle.bind (idle_listing neutral_throwIfAborted) fun _ => ?_
  refine Idle.bind (idle_listing neutral_resolveTurnAuthority) fun resolution => ?_
  cases resolution with
  | unavailable code detail =>
      exact Idle.bind (idle_recordCatalog toolCatalogListed_unchecked) fun _ => idle_done _
  | resolved authority =>
      refine Idle.bind (idle_listing neutral_resolveToolRegistry) fun outcome => ?_
      cases outcome with
      | error e => exact idle_throw _
      | ok tools =>
          refine Idle.bind (idle_listing (hdiscover _ _ _)) fun found => ?_
          split
          · exact idle_throw _
          · exact Idle.bind (idle_recordCatalog toolCatalogListed_unchecked) fun _ => idle_done _

end Records

/-- What each operation of the kernel spends, in every run of it. -/
structure SpendingRecorded (kernel : SharedOSKernel) (ports : OperationPorts) : Prop where
  authorize : ∀ context request t r,
    Program.Finishes (kernel.authorize context request) t r → SpentAsRecorded kernel context false t
  admitTurn : ∀ context agent t r,
    Program.Finishes (kernel.admitTurn context agent) t r → SpentAsRecorded kernel context true t
  readAgentCard : ∀ context subject view t r,
    Program.Finishes (readAgentCard kernel context subject view) t r →
      SpentAsRecorded kernel context false t
  reach : ∀ context t r, Program.Finishes (kernel.reach context) t r → Untouched t
  listTools : ∀ context t r, Program.Finishes (listTools kernel context) t r →
    Untouched (askedOfKernel t)
  invokeTool : ∀ context call t r, Program.Finishes (invokeTool kernel context call) t r →
    SpentAsRecorded kernel context true t
  invokeResource : ∀ context asked t r,
    Program.Finishes (invokeResource kernel ports context asked) t r →
      SpentAsRecorded kernel context true (kernelTrace t)
  sendMessage : ∀ context candidate t r,
    Program.Finishes (sendMessage kernel ports context candidate) t r →
      SpentAsRecorded kernel context true (kernelTrace t)

/-- A run of the kernel is its own account. -/
theorem RecordsSpending.of_kernel {kernel : SharedOSKernel} {context : AccessContext}
    {consumes : Bool} {α : Type} {p : KernelM α} {t : KernelTrace} {r : Except KernelError α}
    (h : RecordsSpending some kernel context consumes p) (hrun : Program.Finishes p t r) :
    SpentAsRecorded kernel context consumes t := by
  have hrecorded := h t r hrun
  rwa [List.filterMap_some] at hrecorded

/-- **A use is spent by a decision on record, and by nothing else.** -/
theorem uses_spent_as_recorded (kernel : SharedOSKernel) (ports : OperationPorts) :
    SpendingRecorded kernel ports where
  authorize context request t r hrun := (records_authorize request).of_kernel hrun
  admitTurn context agent t r hrun := (records_admitTurn agent).of_kernel hrun
  readAgentCard context subject view t r hrun := (records_readAgentCard subject view).of_kernel hrun
  reach context t r hrun := by
    have hidle := idle_reach t r hrun
    rwa [List.filterMap_some] at hidle
  listTools context t r hrun := idle_listTools t r hrun
  invokeTool context call t r hrun := (records_invokeTool call).of_kernel hrun
  invokeResource context asked t r hrun := records_invokeResource asked t r hrun
  sendMessage context candidate t r hrun := records_sendMessage candidate t r hrun

end SharedOS.Kernel
