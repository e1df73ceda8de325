/-
SharedOS.Kernel.Refusal — which check refused, read from the audit record.

A refusal code says what the caller was told, and a gate says which check produced it. The gate is
read off the record (`classifyRefusal`), and a refused call is joined to its records by its id
(`explainRefusal`). A denied decision never carries the code of an allow (`decideOnGrants_coded`), so
every code a decision is denied with has a gate.
-/
import SharedOS.Kernel.MediatedOperations

namespace SharedOS.Kernel

open SharedOS.Foundation SharedOS.Contracts SharedOS.Core

/-! ## Gates -/

/-- The gate that refused. -/
inductive RefusalGate where
  | envelope
  | registration
  | request
  | infrastructure
  | ceiling
  | grant
  deriving DecidableEq

/-- Causes of `tool_unavailable` that name a registration fact rather than a decision. -/
def registrationCauses : List JsString := ["not_registered", "namespace_disabled"]

/-- The codes of a request that does not fit its context. -/
def requestCodes : List JsString :=
  ["invalid_context", "invalid_request", "trace_mismatch", "actor_mismatch", "receiver_mismatch",
    "message_context_mismatch", "execution_in_progress"]

/-- The codes of a decision over grants. -/
def grantCodes : List JsString :=
  ["no_matching_grant", "grant_exhausted", "delegation_chain_invalid"]

/-- The gate a reason code names. -/
def gateForCode (code : JsString) : Option RefusalGate :=
  if code ∈ infrastructureDenialReasons.map AuthorizationReasonCode.text then some .infrastructure
  else if code = "host_policy_denied" then some .ceiling
  else if code ∈ requestCodes then some .request
  else if code ∈ grantCodes then some .grant
  else none

/-- `classifyRefusal`. -/
def classifyRefusal (event : AuditEvent) : Option RefusalGate :=
  if event.outcome ≠ .denied then none
  else
    match event.reason with
    | none => none
    | some reason =>
      if event.source = some .envelope then some .envelope
      else if ∃ cause ∈ event.cause, cause ∈ registrationCauses then some .registration
      else if event.failClosed = some true then some .infrastructure
      else if reason = "tool_unavailable" then event.cause.bind gateForCode
      else gateForCode reason

/-- A refused tool call, joined to the records that explain it. -/
structure RefusalExplanation where
  gate : Option RefusalGate
  code : JsString
  source : Option AuditSource
  cause : Option JsString
  refusal : AuditEvent
  decision : Option AuditEvent

/-- The denials of one type among the records. -/
def denialsOf (type : AuditEventType) (events : List AuditEvent) : List AuditEvent :=
  events.filter fun event => event.type = type ∧ event.outcome = .denied

/-- The records under one id. -/
def ownEvents (callId : JsString) (events : List AuditEvent) : List AuditEvent :=
  events.filter fun event => event.operationId = some callId

/-- `explainRefusal`. The last record under the id stands, wherever it is in the log. -/
def explainRefusal (callId : JsString) (events : List AuditEvent) : Option RefusalExplanation := do
  let own := ownEvents callId events
  let refusal ← (denialsOf .toolInvoked own).getLast?
  let code ← refusal.reason
  some
    { gate := classifyRefusal refusal
      code
      source := refusal.source
      cause := refusal.cause
      refusal
      decision := (denialsOf .authorizationChecked own).getLast? }

/-! ## The gate of a decision -/

/-- The gate a decision is denied at, by its code. -/
def gateOf : AuthorizationReasonCode → Option RefusalGate
  | .allowed => none
  | .invalidContext | .invalidRequest => some .request
  | .noMatchingGrant | .grantExhausted | .delegationChainInvalid => some .grant
  | .authorityUnavailable | .delegationChainUnverified | .usageStoreUnavailable
  | .hostPolicyUnavailable => some .infrastructure
  | .hostPolicyDenied => some .ceiling

theorem gateForCode_text (code : AuthorizationReasonCode) : gateForCode code.text = gateOf code := by
  cases code <;> decide +kernel

theorem gateOf_isSome {code : AuthorizationReasonCode} (h : code ≠ .allowed) :
    ∃ gate, gateOf code = some gate := by
  cases code with
  | allowed => exact absurd rfl h
  | _ => exact ⟨_, rfl⟩

theorem failClosedFor_text (code : AuthorizationReasonCode) :
    failClosedFor (some code.text) =
      if gateOf code = some .infrastructure then some true else none := by
  cases code <;> decide +kernel

/-- A code of a decision is none of the registration causes. -/
theorem text_not_registration (code : AuthorizationReasonCode) :
    code.text ∉ registrationCauses := by
  cases code <;> decide +kernel

theorem text_ne_toolUnavailable (code : AuthorizationReasonCode) :
    code.text ≠ "tool_unavailable" := by
  cases code <;> decide +kernel

/-! ## Reading the record of a denial -/

section Classify

variable {event : AuditEvent} {callId tool : JsString} {hash : Option JsString}

/-- A denial under a decision's own code. -/
theorem classifyRefusal_decided (code : AuthorizationReasonCode) {detail : ToolResultAuditDetail}
    (hcause : detail.cause = none)
    (h : event.toAuditEventInput =
      toolInvoked .kernel callId tool .denied (some code.text) detail hash) :
    classifyRefusal event = gateOf code := by
  have hfailClosed : event.failClosed = failClosedFor (some code.text) := by
    rw [h]
    rfl
  have hfields : event.outcome = .denied ∧ event.reason = some code.text ∧
      event.source = some .kernel ∧ event.cause = none := by
    rw [h]
    exact ⟨rfl, rfl, rfl, hcause⟩
  obtain ⟨houtcome, hreason, hsource, hnone⟩ := hfields
  have htext := text_ne_toolUnavailable code
  unfold classifyRefusal
  simp only [houtcome, hreason, hsource, hnone, hfailClosed, failClosedFor_text, htext,
    gateForCode_text, ne_eq, not_true_eq_false, if_false, Option.some.injEq, reduceCtorEq,
    Option.mem_def, false_and, exists_false]
  split
  · next hgate =>
      rw [if_pos rfl]
      exact hgate.symm
  · rfl

/-- A tool that is not offered, for a reason that is a decision's. -/
theorem classifyRefusal_undiscovered {code : AuthorizationReasonCode}
    {detail : ToolResultAuditDetail} (hcause : detail.cause = some code.text)
    (h : event.toAuditEventInput =
      toolInvoked .kernel callId tool .denied (some "tool_unavailable") detail hash) :
    classifyRefusal event = gateOf code := by
  have hfailClosed : event.failClosed = none := by
    rw [h]
    exact (by decide +kernel : failClosedFor (some "tool_unavailable") = none)
  have hfields : event.outcome = .denied ∧ event.reason = some ("tool_unavailable" : JsString) ∧
      event.source = some .kernel ∧ event.cause = some code.text := by
    rw [h]
    exact ⟨rfl, rfl, rfl, hcause⟩
  obtain ⟨houtcome, hreason, hsource, hsome⟩ := hfields
  have hregistered := text_not_registration code
  unfold classifyRefusal
  simp only [houtcome, hreason, hsource, hsome, hfailClosed, hregistered, gateForCode_text, ne_eq,
    not_true_eq_false, if_false, if_true, Option.some.injEq, reduceCtorEq, Option.mem_def,
    exists_eq_left', Option.bind_some]

/-- A tool the context does not have. -/
theorem classifyRefusal_registration {cause : JsString} {detail : ToolResultAuditDetail}
    (hregistered : cause ∈ registrationCauses) (hcause : detail.cause = some cause)
    (h : event.toAuditEventInput =
      toolInvoked .kernel callId tool .denied (some "tool_unavailable") detail hash) :
    classifyRefusal event = some .registration := by
  have hfields : event.outcome = .denied ∧ event.reason = some ("tool_unavailable" : JsString) ∧
      event.source = some .kernel ∧ event.cause = some cause := by
    rw [h]
    exact ⟨rfl, rfl, rfl, hcause⟩
  obtain ⟨houtcome, hreason, hsource, hsome⟩ := hfields
  unfold classifyRefusal
  simp only [houtcome, hreason, hsource, hsome, hregistered, ne_eq, not_true_eq_false, if_false,
    if_true, Option.some.injEq, reduceCtorEq, Option.mem_def, exists_eq_left']

/-- A call of another trace. -/
theorem classifyRefusal_trace
    (h : event.toAuditEventInput =
      toolInvoked .kernel callId tool .denied (some "trace_mismatch") {} hash) :
    classifyRefusal event = some .request := by
  have hfailClosed : event.failClosed = none := by
    rw [h]
    exact (by decide +kernel : failClosedFor (some "trace_mismatch") = none)
  have hfields : event.outcome = .denied ∧ event.reason = some ("trace_mismatch" : JsString) ∧
      event.source = some .kernel ∧ event.cause = none := by
    rw [h]
    exact ⟨rfl, rfl, rfl, rfl⟩
  obtain ⟨houtcome, hreason, hsource, hnone⟩ := hfields
  have hne : ("trace_mismatch" : JsString) ≠ "tool_unavailable" := by decide
  have hgate : gateForCode "trace_mismatch" = some .request := by decide +kernel
  unfold classifyRefusal
  simp only [houtcome, hreason, hsource, hnone, hfailClosed, hne, hgate, ne_eq, not_true_eq_false,
    if_false, Option.some.injEq, reduceCtorEq, Option.mem_def, false_and, exists_false]

end Classify

/-! ## No denial carries the code of an allow -/

/-- A denied decision has a code of a denial. -/
def Coded (decision : AuthorizationDecision) : Prop :=
  decision.allowed = false → decision.reasonCode ≠ .allowed

theorem coded_deny {code : AuthorizationReasonCode} (h : code ≠ .allowed) (metadata : Option Json) :
    Coded (deny code metadata) := fun _ => h

theorem coded_allow (grantId : JsString) : Coded (allow grantId) := fun h => Bool.noConfusion h

/-- A walk that holds a denial holds one with a reason. -/
def CodedWalk (walk : GrantWalk) : Prop := ∀ denial, walk.policyDenial = some denial → Coded denial

/-- A decision a grant comes to has a reason, where it is a refusal. -/
def CodedConsideration : Consideration → Prop
  | .next walk => CodedWalk walk
  | .decided decision _ _ => Coded decision

section Coded

variable [HostPlatform] {kernel : SharedOSKernel} {consume : Bool}

omit [HostPlatform] in
theorem applyCeiling_coded (grantId : JsString) (request : CapabilityRequirement)
    (context : AccessContext) (hostPolicy : Option PolicyResolution) :
    Program.Returns Coded (applyCeiling kernel.authorizer grantId request context hostPolicy) := by
  unfold applyCeiling
  split
  · exact coded_allow grantId
  · split
    · exact coded_deny (by decide) none
    · have houtage : Coded (deny .hostPolicyUnavailable none) := coded_deny (by decide) none
      refine Program.returns_bind fun answer => ?_
      split
      · split
        · exact houtage
        · exact Program.returns_bind fun _ => houtage
      · exact houtage
      · split
        · exact coded_allow grantId
        · exact houtage
      · intro _
        exact AuthorizationReasonCode.noConfusion

omit [HostPlatform] in
theorem spendGrant_coded (context : AccessContext) (grant : CapabilityGrant) {walk : GrantWalk}
    (hwalk : CodedWalk walk) :
    Program.Returns CodedConsideration
      (spendGrant kernel.authorizer context grant consume walk) := by
  unfold spendGrant
  split
  · exact coded_allow grant.id
  split
  · exact coded_deny (by decide) none
  · refine Program.returns_bind fun answer => ?_
    split
    · exact coded_allow grant.id
    · exact hwalk
    · exact coded_deny (by decide) none

theorem considerGrant_coded (authority : ResolvedAuthority) (request : CapabilityRequirement)
    (matcher : Matcher) (instants : GrantInstants) (grant : CapabilityGrant) {walk : GrantWalk}
    (hwalk : CodedWalk walk) :
    Program.Returns CodedConsideration
      (considerGrant kernel.authorizer authority request matcher consume instants walk grant) := by
  unfold considerGrant
  refine Program.returns_bind fun rejection => ?_
  split
  · exact hwalk
  split
  · exact hwalk
  refine Program.returns_bind fun validation => ?_
  split
  · exact hwalk
  refine (applyCeiling_coded grant.id request authority.context authority.hostPolicy).bind
    fun narrowed hnarrowed => ?_
  split
  · exact hnarrowed
  split
  · intro denial hdenial
    -- the first refusal of the ceiling stands
    cases hheld : walk.policyDenial with
    | some held =>
        simp only [hheld] at hdenial
        cases hdenial
        exact hwalk _ hheld
    | none =>
        simp only [hheld] at hdenial
        cases hdenial
        exact hnarrowed
  · exact spendGrant_coded authority.context grant hwalk

theorem walkGrants_coded (authority : ResolvedAuthority) (request : CapabilityRequirement)
    (matcher : Matcher) (instants : GrantInstants) (grants : List CapabilityGrant)
    {walk : GrantWalk} (hwalk : CodedWalk walk) :
    Program.Returns CodedConsideration
      (walkGrants kernel.authorizer authority request matcher consume instants walk grants) := by
  induction grants generalizing walk with
  | nil => exact hwalk
  | cons grant rest ih =>
      unfold walkGrants
      refine (considerGrant_coded authority request matcher instants grant hwalk).bind
        fun consideration hconsideration => ?_
      cases consideration with
      | next walk' => exact ih hconsideration
      | decided decision walk' missing => exact hconsideration

theorem denyWalk_coded (authority : ResolvedAuthority) (request : CapabilityRequirement)
    (describeMissing : Bool) {walk : GrantWalk} (hwalk : CodedWalk walk) :
    Coded (denyWalk kernel.authorizer authority request describeMissing walk).decision := by
  unfold denyWalk
  dsimp only
  split
  · next failure hfailure =>
      cases failure.status with
      | unverified => exact coded_deny (by decide) _
      | invalid => exact coded_deny (by decide) _
  · split
    · next denial hdenial => exact hwalk denial hdenial
    · split
      · exact coded_deny (by decide) none
      · split
        · exact coded_deny (by decide) none
        · exact fun _ => AuthorizationReasonCode.noConfusion

/-- **A denied decision is coded**, whatever the authorizer's ports answer. -/
theorem decideOnGrants_coded (authority : ResolvedAuthority) (request : CapabilityRequirement)
    (matcher : Matcher) (operationNow : Option JsString) (describeMissing : Bool) :
    Program.Returns (fun explained => Coded explained.decision)
      (decideOnGrants kernel.authorizer authority request matcher consume operationNow
        describeMissing) := by
  have hstart : CodedWalk .start := fun denial hdenial => by cases hdenial
  unfold decideOnGrants
  dsimp only
  split
  · exact coded_deny (by decide) none
  split
  · exact coded_deny (by decide) none
  · refine (walkGrants_coded authority request matcher _ authority.grants hstart).bind
      fun consideration hconsideration => ?_
    cases consideration with
    | next walk => exact denyWalk_coded authority request describeMissing hconsideration
    | decided decision walk missing => exact hconsideration

end Coded

end SharedOS.Kernel
