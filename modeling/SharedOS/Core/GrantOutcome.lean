/-
SharedOS.Core.GrantOutcome — what each grant comes to by itself, and what the list of them decides.

The walk over the grants mixes an early return, a first-wins accumulator and a worst-wins one. Here
it is taken apart: a grant has an outcome of its own (`grantOutcome`), the walk ends at the first
usable grant (`walkGrants_usable`), and what it has accumulated when it ends without one says which
outcomes occurred and nothing of their order (`Accounts`). The ceiling and the budget are ports like
any other here, so the statements cover consumption and every host policy.
-/
import SharedOS.Core.DecisionLaws

namespace SharedOS.Core

open SharedOS.Foundation SharedOS.Contracts

section Outcomes

variable [HostPlatform]

/-! ## One grant -/

/-- What one grant, considered by itself, comes to. -/
inductive GrantOutcome where
  | ineligible
  | uncovered
  | chainUnverified
  | chainInvalid
  | policyRefused
  | exhausted
  | usable
  /-- A port its budget or the ceiling depends on did not answer. -/
  | malfunctioned
  deriving DecidableEq

/-- The policy a ceiling is shown. -/
def loadedPolicy : Option PolicyResolution → Option HostPolicy
  | some (.loaded policy _) => some policy
  | _ => none

/-- What is left to be seen of a grant that the ceiling accepts. -/
def budgetOutcome (options : CapabilityAuthorizerOptions Id) (context : AccessContext)
    (grant : CapabilityGrant) (consume : Bool) : GrantOutcome :=
  match grant.constraints.maxUses, options.usageStore with
  | none, _ => .usable
  | some _, none => .malfunctioned
  | some maximumUses, some store =>
    match (takeUse store context grant maximumUses consume).run with
    | .fulfilled true => .usable
    | .fulfilled false => .exhausted
    | .rejected => .malfunctioned

/-- What is left to be seen of a grant whose chain is valid. -/
def ceilingOutcome (options : CapabilityAuthorizerOptions Id) (authority : ResolvedAuthority)
    (request : CapabilityRequirement) (grant : CapabilityGrant) (consume : Bool) : GrantOutcome :=
  match options.hostCeiling with
  | none => budgetOutcome options authority.context grant consume
  | some ceiling =>
    if authority.hostPolicy = some .unavailable then .malfunctioned
    else
      match (ceiling.narrow (allow grant.id) request authority.context
          (loadedPolicy authority.hostPolicy)).run with
      | .threw | .notAVerdict => .malfunctioned
      | .allowed matched =>
        if matched = some grant.id then budgetOutcome options authority.context grant consume
        else .malfunctioned
      | .refused _ => .policyRefused

/-- What one grant comes to, whatever the others do. -/
def grantOutcome (options : CapabilityAuthorizerOptions Id) (authority : ResolvedAuthority)
    (request : CapabilityRequirement) (consume : Bool) (instants : GrantInstants)
    (grant : CapabilityGrant) : GrantOutcome :=
  match (grantRejection options authority.context grant instants).run with
  | some _ => .ineligible
  | none =>
    if !grant.capabilities.any fun c => capabilityMatches c request authority.context then
      .uncovered
    else
      match (validateDelegation options authority.context grant instants).run with
      | .unverified .. => .chainUnverified
      | .invalid .. => .chainInvalid
      | .valid _ => ceilingOutcome options authority request grant consume

/-- The ceiling, where one is installed, accepts the grant under its own id. -/
def CeilingAccepts (options : CapabilityAuthorizerOptions Id) (authority : ResolvedAuthority)
    (request : CapabilityRequirement) (grant : CapabilityGrant) : Prop :=
  ∀ ceiling, options.hostCeiling = some ceiling → authority.hostPolicy ≠ some .unavailable ∧
    (ceiling.narrow (allow grant.id) request authority.context
      (loadedPolicy authority.hostPolicy)).run = .allowed (some grant.id)

/-- The grant is unbounded, or the store has a use of it left. -/
def UseLeft (options : CapabilityAuthorizerOptions Id) (context : AccessContext)
    (grant : CapabilityGrant) (consume : Bool) : Prop :=
  ∀ maximumUses, grant.constraints.maxUses = some maximumUses → ∃ store,
    options.usageStore = some store ∧
      (takeUse store context grant maximumUses consume).run = .fulfilled true

/-- Everything a grant must pass, by itself, to carry the request. -/
structure Qualifies (options : CapabilityAuthorizerOptions Id) (authority : ResolvedAuthority)
    (request : CapabilityRequirement) (consume : Bool) (instants : GrantInstants)
    (grant : CapabilityGrant) : Prop where
  issuer : grant.issuer = authority.context.authority
  subject : grant.subject = authority.context.actor
  sameNamespace : grant.namespaceId = authority.context.namespaceId
  active : Active grant authority.context.purpose instants
  verified : VerifierAccepts options authority.context grant
  covered : ∃ c ∈ grant.capabilities, capabilityMatches c request authority.context = true
  chained : ∃ chain, validateDelegation options authority.context grant instants =
    DelegationValidation.valid chain
  accepted : CeilingAccepts options authority request grant
  useLeft : UseLeft options authority.context grant consume

section Grant

variable {options : CapabilityAuthorizerOptions Id} {authority : ResolvedAuthority}
  {request : CapabilityRequirement} {consume : Bool} {instants : GrantInstants}
  {grant : CapabilityGrant} {walk : GrantWalk}

omit [HostPlatform] in
theorem budgetOutcome_usable_iff {context : AccessContext} :
    budgetOutcome options context grant consume = .usable ↔
      UseLeft options context grant consume := by
  unfold budgetOutcome UseLeft
  cases grant.constraints.maxUses with
  | none => simp
  | some maximumUses =>
      cases options.usageStore with
      | none => simp
      | some store =>
          cases hanswer : takeUse store context grant maximumUses consume with
          | rejected => simp [Id.run, hanswer]
          | fulfilled left => cases left <;> simp [Id.run, hanswer]

omit [HostPlatform] in
theorem ceilingOutcome_usable_iff :
    ceilingOutcome options authority request grant consume = .usable ↔
      CeilingAccepts options authority request grant ∧
        UseLeft options authority.context grant consume := by
  unfold ceilingOutcome CeilingAccepts
  cases options.hostCeiling with
  | none => simp [budgetOutcome_usable_iff]
  | some ceiling =>
      by_cases hpolicy : authority.hostPolicy = some .unavailable
      · simp [hpolicy]
      · cases hanswer : ceiling.narrow (allow grant.id) request authority.context
            (loadedPolicy authority.hostPolicy) with
        | threw => simp [Id.run, hpolicy, hanswer]
        | notAVerdict => simp [Id.run, hpolicy, hanswer]
        | refused metadata => simp [Id.run, hpolicy, hanswer]
        | allowed matched =>
            by_cases hmatched : matched = some grant.id <;>
              simp [Id.run, hpolicy, hanswer, hmatched, budgetOutcome_usable_iff]

/-- **A grant is usable when it passes every check by itself.** -/
theorem grantOutcome_usable_iff :
    grantOutcome options authority request consume instants grant = .usable ↔
      Qualifies options authority request consume instants grant := by
  unfold grantOutcome
  cases hrejection : grantRejection options authority.context grant instants with
  | some reason =>
      refine iff_of_false (by simp [Id.run]) fun h => ?_
      have hnone := grantRejection_eq_none_iff.mpr
        ⟨h.issuer, h.subject, h.sameNamespace, h.active, h.verified⟩
      rw [hrejection] at hnone
      cases hnone
  | none =>
      obtain ⟨hissuer, hsubject, hnamespace, hactive, hverified⟩ :=
        grantRejection_eq_none_iff.mp hrejection
      cases hcovered : grant.capabilities.any fun c =>
          capabilityMatches c request authority.context with
      | false =>
          refine iff_of_false (by simp [Id.run]) fun h => ?_
          rw [List.any_eq_true.mpr h.covered] at hcovered
          cases hcovered
      | true =>
          cases hchain : validateDelegation options authority.context grant instants with
          | unverified chain code grantId =>
              refine iff_of_false (by simp [Id.run]) fun h => ?_
              obtain ⟨chain', hvalid⟩ := h.chained
              rw [hchain] at hvalid
              cases hvalid
          | invalid chain code grantId =>
              refine iff_of_false (by simp [Id.run]) fun h => ?_
              obtain ⟨chain', hvalid⟩ := h.chained
              rw [hchain] at hvalid
              cases hvalid
          | valid chain =>
              show ceilingOutcome options authority request grant consume = .usable ↔ _
              rw [ceilingOutcome_usable_iff]
              constructor
              · rintro ⟨haccepted, hleft⟩
                exact ⟨hissuer, hsubject, hnamespace, hactive, hverified,
                  List.any_eq_true.mp hcovered, ⟨chain, hchain⟩, haccepted, hleft⟩
              · exact fun h => ⟨h.accepted, h.useLeft⟩

/-! ## One step of the walk -/

/-- What the walk has accumulated tells which outcomes it has passed over, and not their order. -/
structure Accounts (outcomes : List GrantOutcome) (walk : GrantWalk) : Prop where
  unverified : .chainUnverified ∈ outcomes ↔
    ∃ failure, walk.delegationFailure = some failure ∧ failure.status = .unverified
  broken : .chainUnverified ∈ outcomes ∨ .chainInvalid ∈ outcomes ↔
    walk.delegationFailure.isSome
  refused : .policyRefused ∈ outcomes ↔ walk.policyDenial.isSome
  refusal : ∀ denial, walk.policyDenial = some denial →
    denial.allowed = false ∧ denial.reasonCode = .hostPolicyDenied
  exhausted : .exhausted ∈ outcomes ↔ walk.foundExhaustedGrant = true

/-- What considering a grant of this outcome does to the walk. -/
inductive Considered (walk : GrantWalk) (grant : CapabilityGrant) :
    GrantOutcome → Consideration → Prop
  | usable : Considered walk grant .usable (.decided (allow grant.id) walk none)
  | malfunctioned {decision : AuthorizationDecision} {missing : Option MissingDependency} :
      decision.allowed = false →
      Considered walk grant .malfunctioned (.decided decision walk missing)
  | ineligible (reason : GrantRejectionReason) :
      Considered walk grant .ineligible (.next (walk.reject grant reason))
  | uncovered : Considered walk grant .uncovered (.next (walk.reject grant .capability))
  | broken {outcome : GrantOutcome} {failure : DelegationFailure} :
      (outcome = .chainUnverified ∧ failure.status = .unverified) ∨
        (outcome = .chainInvalid ∧ failure.status = .invalid) →
      Considered walk grant outcome
        (.next { walk.reject grant .delegation with
          delegationFailure := some (worstDelegationFailure walk.delegationFailure failure) })
  | policyRefused {denial : AuthorizationDecision} :
      denial.allowed = false → denial.reasonCode = .hostPolicyDenied →
      Considered walk grant .policyRefused
        (.next { walk with policyDenial := walk.policyDenial <|> some denial })
  | exhausted :
      Considered walk grant .exhausted
        (.next { walk.reject grant .exhausted with foundExhaustedGrant := true })

omit [HostPlatform] in
theorem spendGrant_considered :
    Considered walk grant (budgetOutcome options authority.context grant consume)
      (spendGrant options authority.context grant consume walk) := by
  unfold budgetOutcome spendGrant
  cases grant.constraints.maxUses with
  | none => exact .usable
  | some maximumUses =>
      cases options.usageStore with
      | none => exact .malfunctioned rfl
      | some store =>
          dsimp only [Bind.bind, Pure.pure]
          cases takeUse store authority.context grant maximumUses consume with
          | rejected => exact .malfunctioned rfl
          | fulfilled left =>
              cases left with
              | true => exact .usable
              | false => exact .exhausted

/-- The decision a ceiling's answer becomes. -/
def narrowedBy (grantId : JsString) : CeilingAnswer → AuthorizationDecision
  | .threw | .notAVerdict => deny .hostPolicyUnavailable none
  | .allowed matched =>
    if matched = some grantId then allow grantId else deny .hostPolicyUnavailable none
  | .refused metadata =>
    { allowed := false
      reasonCode := .hostPolicyDenied
      matchedGrantId := some grantId
      requiredAuthority := none
      metadata }

omit [HostPlatform] in
theorem applyCeiling_eq {ceiling : HostCeiling Id} {grantId : JsString} {context : AccessContext}
    {hostPolicy : Option PolicyResolution} (hceiling : options.hostCeiling = some ceiling)
    (hpolicy : hostPolicy ≠ some .unavailable) :
    applyCeiling options grantId request context hostPolicy =
      narrowedBy grantId
        (ceiling.narrow (allow grantId) request context (loadedPolicy hostPolicy)).run := by
  unfold applyCeiling
  rw [hceiling]
  dsimp only [Bind.bind, Pure.pure, Id.run]
  cases hostPolicy with
  | none =>
      dsimp only [loadedPolicy]
      cases ceiling.narrow (allow grantId) request context none with
      | threw => cases options.onProviderError <;> rfl
      | notAVerdict => rfl
      | allowed matched => rfl
      | refused metadata => rfl
  | some resolution =>
      cases resolution with
      | unavailable => exact absurd rfl hpolicy
      | loaded policy version =>
          dsimp only [loadedPolicy]
          cases ceiling.narrow (allow grantId) request context (some policy) with
          | threw => cases options.onProviderError <;> rfl
          | notAVerdict => rfl
          | allowed matched => rfl
          | refused metadata => rfl

/-- The end of the loop body, once the ceiling has answered. -/
def afterCeiling (options : CapabilityAuthorizerOptions Id) (context : AccessContext)
    (consume : Bool) (walk : GrantWalk) (grant : CapabilityGrant)
    (narrowed : AuthorizationDecision) : Consideration :=
  if narrowed.reasonCode = .hostPolicyUnavailable then .decided narrowed walk none
  else if !narrowed.allowed then
    .next { walk with policyDenial := walk.policyDenial <|> some narrowed }
  else (spendGrant options context grant consume walk).run

omit [HostPlatform] in
theorem afterCeiling_considered :
    Considered walk grant (ceilingOutcome options authority request grant consume)
      (afterCeiling options authority.context consume walk grant
        (applyCeiling options grant.id request authority.context authority.hostPolicy).run) := by
  unfold ceilingOutcome
  cases hceiling : options.hostCeiling with
  | none =>
      have hallow : applyCeiling options grant.id request authority.context authority.hostPolicy =
          allow grant.id := by
        unfold applyCeiling
        rw [hceiling]
        rfl
      rw [hallow]
      exact spendGrant_considered
  | some ceiling =>
      dsimp only
      by_cases hpolicy : authority.hostPolicy = some .unavailable
      · have hdeny : applyCeiling options grant.id request authority.context
            authority.hostPolicy = deny .hostPolicyUnavailable none := by
          unfold applyCeiling
          rw [hceiling, hpolicy]
          rfl
        rw [if_pos hpolicy, hdeny]
        exact .malfunctioned rfl
      · rw [if_neg hpolicy, applyCeiling_eq hceiling hpolicy]
        cases (ceiling.narrow (allow grant.id) request authority.context
            (loadedPolicy authority.hostPolicy)).run with
        | threw => exact .malfunctioned rfl
        | notAVerdict => exact .malfunctioned rfl
        | refused metadata => exact .policyRefused rfl rfl
        | allowed matched =>
            dsimp only [narrowedBy]
            by_cases hmatched : matched = some grant.id
            · rw [if_pos hmatched, if_pos hmatched]
              exact spendGrant_considered
            · rw [if_neg hmatched, if_neg hmatched]
              exact .malfunctioned rfl

/-- **One step.** The loop body does to the walk what the grant's own outcome says. -/
theorem considerGrant_considered :
    Considered walk grant (grantOutcome options authority request consume instants grant)
      (considerGrant options authority request capabilityMatches consume instants walk
        grant) := by
  unfold grantOutcome considerGrant
  dsimp only [Bind.bind, Pure.pure, Id.run]
  cases grantRejection options authority.context grant instants with
  | some reason => exact .ineligible reason
  | none =>
      dsimp only
      split
      · exact .uncovered
      · cases validateDelegation options authority.context grant instants with
        | unverified chain code grantId => exact .broken (.inl ⟨rfl, rfl⟩)
        | invalid chain code grantId => exact .broken (.inr ⟨rfl, rfl⟩)
        | valid chain =>
            dsimp only [delegationFailureOf]
            exact afterCeiling_considered

omit [HostPlatform] in
theorem accounts_start : Accounts [] .start where
  unverified := by simp [GrantWalk.start]
  broken := by simp [GrantWalk.start]
  refused := by simp [GrantWalk.start]
  refusal := by simp [GrantWalk.start]
  exhausted := by simp [GrantWalk.start]

omit [HostPlatform] in
@[simp] theorem GrantWalk.reject_foundExhaustedGrant (reason : GrantRejectionReason) :
    (walk.reject grant reason).foundExhaustedGrant = walk.foundExhaustedGrant := rfl

omit [HostPlatform] in
@[simp] theorem GrantWalk.reject_policyDenial (reason : GrantRejectionReason) :
    (walk.reject grant reason).policyDenial = walk.policyDenial := rfl

omit [HostPlatform] in
@[simp] theorem GrantWalk.reject_delegationFailure (reason : GrantRejectionReason) :
    (walk.reject grant reason).delegationFailure = walk.delegationFailure := rfl

omit [HostPlatform] in
/-- The worse of two failures is unverified when one of them is. -/
theorem worstDelegationFailure_unverified_iff {current : Option DelegationFailure}
    {candidate : DelegationFailure} :
    (worstDelegationFailure current candidate).status = .unverified ↔
      (∃ failure, current = some failure ∧ failure.status = .unverified) ∨
        candidate.status = .unverified := by
  unfold worstDelegationFailure
  cases current with
  | none => simp
  | some current =>
      dsimp only
      split
      · next hworse => simp [hworse.2]
      · next hkept =>
          cases hcurrent : current.status with
          | unverified => simp [hcurrent]
          | invalid => simpa [hcurrent] using hkept

omit [HostPlatform] in
/-- The accounts are kept by a grant that is passed over. -/
theorem Accounts.next {outcomes : List GrantOutcome} {outcome : GrantOutcome} {walk' : GrantWalk}
    (h : Accounts outcomes walk) (hconsidered : Considered walk grant outcome (.next walk')) :
    Accounts (outcomes ++ [outcome]) walk' := by
  cases hconsidered with
  | ineligible reason =>
      exact ⟨by simp [h.unverified], by simp [h.broken], by simp [h.refused], h.refusal,
        by simp [h.exhausted]⟩
  | uncovered =>
      exact ⟨by simp [h.unverified], by simp [h.broken], by simp [h.refused], h.refusal,
        by simp [h.exhausted]⟩
  | broken hstatus =>
      refine ⟨?_, ?_, ?_, h.refusal, ?_⟩
      · simp only [List.mem_append, h.unverified, List.mem_singleton, Option.some.injEq,
          exists_eq_left', worstDelegationFailure_unverified_iff]
        rcases hstatus with ⟨rfl, hunverified⟩ | ⟨rfl, hinvalid⟩
        · simp [hunverified]
        · simp [hinvalid]
      · rcases hstatus with ⟨rfl, -⟩ | ⟨rfl, -⟩ <;> simp
      · rcases hstatus with ⟨rfl, -⟩ | ⟨rfl, -⟩ <;> simp [h.refused]
      · rcases hstatus with ⟨rfl, -⟩ | ⟨rfl, -⟩ <;> simp [h.exhausted]
  | @policyRefused denial hallowed hreason =>
      refine ⟨by simp [h.unverified], by simp [h.broken], ?_, ?_, by simp [h.exhausted]⟩
      · cases walk.policyDenial <;> simp
      · intro first hfirst
        cases hbefore : walk.policyDenial with
        | none =>
            rw [hbefore] at hfirst
            cases hfirst
            exact ⟨hallowed, hreason⟩
        | some earlier =>
            rw [hbefore] at hfirst
            cases hfirst
            exact h.refusal _ hbefore
  | exhausted =>
      exact ⟨by simp [h.unverified], by simp [h.broken], by simp [h.refused], h.refusal, by simp⟩

end Grant

/-! ## The walk -/

section Walk

variable {options : CapabilityAuthorizerOptions Id} {authority : ResolvedAuthority}
  {request : CapabilityRequirement} {consume : Bool} {instants : GrantInstants}
  {now : Option JsString}

/-- A grant the walk goes past. -/
def GrantOutcome.passed (outcome : GrantOutcome) : Prop :=
  outcome ≠ .usable ∧ outcome ≠ .malfunctioned

/-- How a walk over grants of these outcomes ends. -/
inductive Walked (outcomeOf : CapabilityGrant → GrantOutcome) (outcomes : List GrantOutcome)
    (grants : List CapabilityGrant) : Consideration → Prop
  | allowed {before after : List CapabilityGrant} {grant : CapabilityGrant} {walk : GrantWalk} :
      grants = before ++ grant :: after → outcomeOf grant = .usable →
      (∀ g ∈ before, (outcomeOf g).passed) →
      Walked outcomeOf outcomes grants (.decided (allow grant.id) walk none)
  | stopped {grant : CapabilityGrant} {decision : AuthorizationDecision} {walk : GrantWalk}
      {missing : Option MissingDependency} :
      grant ∈ grants → outcomeOf grant = .malfunctioned → decision.allowed = false →
      Walked outcomeOf outcomes grants (.decided decision walk missing)
  | through {walk : GrantWalk} :
      (∀ g ∈ grants, (outcomeOf g).passed) → Accounts (outcomes ++ grants.map outcomeOf) walk →
      Walked outcomeOf outcomes grants (.next walk)

omit [HostPlatform] in
/-- The rest of the walk, behind a grant that was passed. -/
theorem Walked.cons {outcomeOf : CapabilityGrant → GrantOutcome} {outcomes : List GrantOutcome}
    {grant : CapabilityGrant} {rest : List CapabilityGrant} {consideration : Consideration}
    (hpassed : (outcomeOf grant).passed)
    (h : Walked outcomeOf (outcomes ++ [outcomeOf grant]) rest consideration) :
    Walked outcomeOf outcomes (grant :: rest) consideration := by
  cases h with
  | @allowed before after usable walk hsplit husable hbefore =>
      have hsplit' : grant :: rest = (grant :: before) ++ usable :: after := by
        rw [hsplit, List.cons_append]
      refine .allowed hsplit' husable fun g hg => ?_
      rcases List.mem_cons.mp hg with rfl | hg
      · exact hpassed
      · exact hbefore g hg
  | stopped hmem hmalfunctioned hdenied =>
      exact .stopped (List.mem_cons_of_mem _ hmem) hmalfunctioned hdenied
  | through hall haccounts =>
      refine .through (fun g hg => ?_) (by simpa using haccounts)
      rcases List.mem_cons.mp hg with rfl | hg
      · exact hpassed
      · exact hall g hg

/-- **The walk.** It ends at the first usable grant, at a port that did not answer, or past every
grant with accounts of them all. -/
theorem walkGrants_walked {outcomes : List GrantOutcome} {walk : GrantWalk}
    (haccounts : Accounts outcomes walk) (grants : List CapabilityGrant) :
    Walked (grantOutcome options authority request consume instants) outcomes grants
      (walkGrants options authority request capabilityMatches consume instants walk
        grants).run := by
  induction grants generalizing outcomes walk with
  | nil => exact .through (by simp) (by simpa using haccounts)
  | cons grant rest ih =>
      have hconsidered := @considerGrant_considered _ options authority request consume instants
        grant walk
      unfold walkGrants
      dsimp only [Bind.bind, Pure.pure, Id.run]
      generalize houtcome : grantOutcome options authority request consume instants grant =
        outcome at hconsidered
      generalize considerGrant options authority request capabilityMatches consume instants walk
        grant = consideration at hconsidered
      cases consideration with
      | decided decision walk' missing =>
          cases hconsidered with
          | usable => exact .allowed (List.nil_append _).symm houtcome (by simp)
          | malfunctioned hdenied => exact .stopped List.mem_cons_self houtcome hdenied
      | next walk' =>
          have hnext := haccounts.next hconsidered
          have hpassed : outcome.passed := by
            cases hconsidered with
            | ineligible => exact ⟨nofun, nofun⟩
            | uncovered => exact ⟨nofun, nofun⟩
            | broken hstatus =>
                rcases hstatus with ⟨rfl, -⟩ | ⟨rfl, -⟩ <;> exact ⟨nofun, nofun⟩
            | policyRefused => exact ⟨nofun, nofun⟩
            | exhausted => exact ⟨nofun, nofun⟩
          rw [← houtcome] at hnext hpassed
          exact (ih hnext).cons hpassed

/-- The reason of a denial, as a function of which outcomes occur. -/
def denialReason (outcomes : List GrantOutcome) : AuthorizationReasonCode :=
  if .chainUnverified ∈ outcomes then .delegationChainUnverified
  else if .chainInvalid ∈ outcomes then .delegationChainInvalid
  else if .policyRefused ∈ outcomes then .hostPolicyDenied
  else if .exhausted ∈ outcomes then .grantExhausted
  else .noMatchingGrant

omit [HostPlatform] in
theorem denialReason_perm {outcomes outcomes' : List GrantOutcome}
    (h : outcomes.Perm outcomes') : denialReason outcomes = denialReason outcomes' := by
  unfold denialReason
  simp only [h.mem_iff]

/-- **The precedence.** -/
theorem denyWalk_reason {outcomes : List GrantOutcome} {walk : GrantWalk}
    (h : Accounts outcomes walk) (describeMissing : Bool) :
    (denyWalk options authority request describeMissing walk).decision.allowed = false ∧
      (denyWalk options authority request describeMissing walk).decision.reasonCode =
        denialReason outcomes := by
  unfold denialReason
  simp only [h.unverified, h.refused, h.exhausted]
  unfold denyWalk
  cases hfailure : walk.delegationFailure with
  | some failure =>
      have hbroken := h.broken.mpr (by rw [hfailure]; rfl)
      rw [h.unverified, hfailure] at hbroken
      cases hstatus : failure.status with
      | unverified => simp [explained, hstatus, deny]
      | invalid =>
          have hinvalid : GrantOutcome.chainInvalid ∈ outcomes := by simpa [hstatus] using hbroken
          simp [explained, hstatus, hinvalid, deny]
  | none =>
      have hsound : GrantOutcome.chainInvalid ∉ outcomes := fun hmem => by
        have := h.broken.mp (.inr hmem)
        rw [hfailure] at this
        cases this
      cases hdenial : walk.policyDenial with
      | some denial =>
          obtain ⟨hdenied, hreason⟩ := h.refusal denial hdenial
          simp [explained, hsound, hdenied, hreason]
      | none =>
          cases hexhausted : walk.foundExhaustedGrant <;> cases describeMissing <;>
            simp [explained, hsound, deny]

end Walk

/-! ## The decision -/

/-- The store answers, where the budget of a listed grant is asked for. -/
def BudgetsAnswer (options : CapabilityAuthorizerOptions Id) (authority : ResolvedAuthority)
    (consume : Bool) : Prop :=
  ∀ grant ∈ authority.grants, ∀ maximumUses, grant.constraints.maxUses = some maximumUses →
    ∃ store left, options.usageStore = some store ∧
      (takeUse store authority.context grant maximumUses consume).run = .fulfilled left

/-- Where a ceiling is installed its policy was loaded, and it answers each listed grant with a
refusal or with the allow it was shown. -/
def CeilingAnswers (options : CapabilityAuthorizerOptions Id) (authority : ResolvedAuthority)
    (request : CapabilityRequirement) : Prop :=
  ∀ ceiling, options.hostCeiling = some ceiling → authority.hostPolicy ≠ some .unavailable ∧
    ∀ grant ∈ authority.grants,
      (ceiling.narrow (allow grant.id) request authority.context
          (loadedPolicy authority.hostPolicy)).run = .allowed (some grant.id) ∨
        ∃ metadata, (ceiling.narrow (allow grant.id) request authority.context
          (loadedPolicy authority.hostPolicy)).run = .refused metadata

/-- The first grant, in list order, that qualifies. -/
def FirstQualifying (options : CapabilityAuthorizerOptions Id) (authority : ResolvedAuthority)
    (request : CapabilityRequirement) (consume : Bool) (instants : GrantInstants) :
    CapabilityGrant → Prop :=
  FirstIn (Qualifies options authority request consume instants) authority.grants

section Decision

variable {options : CapabilityAuthorizerOptions Id} {authority : ResolvedAuthority}
  {request : CapabilityRequirement} {consume : Bool} {instants : GrantInstants}
  {now : Option JsString}

theorem grantOutcome_ne_malfunctioned {grant : CapabilityGrant}
    (hmem : grant ∈ authority.grants) (hbudget : BudgetsAnswer options authority consume)
    (hceiling : CeilingAnswers options authority request) :
    grantOutcome options authority request consume instants grant ≠ .malfunctioned := by
  have hspent : budgetOutcome options authority.context grant consume ≠ .malfunctioned := by
    unfold budgetOutcome
    cases hmax : grant.constraints.maxUses with
    | none => simp
    | some maximumUses =>
        obtain ⟨store, left, hstore, hleft⟩ := hbudget grant hmem maximumUses hmax
        rw [hstore]
        dsimp only
        rw [hleft]
        cases left <;> simp
  have hcapped : ceilingOutcome options authority request grant consume ≠ .malfunctioned := by
    unfold ceilingOutcome
    cases hinstalled : options.hostCeiling with
    | none => exact hspent
    | some ceiling =>
        obtain ⟨hloaded, hanswers⟩ := hceiling ceiling hinstalled
        dsimp only
        rw [if_neg hloaded]
        rcases hanswers grant hmem with hallowed | ⟨metadata, hrefused⟩
        · rw [hallowed]
          simpa using hspent
        · rw [hrefused]
          simp
  unfold grantOutcome
  cases (grantRejection options authority.context grant instants).run with
  | some reason => simp
  | none =>
      dsimp only
      split
      · simp
      · cases (validateDelegation options authority.context grant instants).run with
        | unverified chain code grantId => simp
        | invalid chain code grantId => simp
        | valid chain => exact hcapped

/-- What was decided on the way, or denied at the end, is the decision. -/
def closeWalk (options : CapabilityAuthorizerOptions Id) (authority : ResolvedAuthority)
    (request : CapabilityRequirement) (describeMissing : Bool) : Consideration → Explained
  | .decided decision walk missingDependency =>
    explained decision authority.grants.length walk missingDependency
  | .next walk => denyWalk options authority request describeMissing walk

/-- Without instants to decide at, the context is refused before any grant is looked at. -/
theorem authorize_invalidContext (hinstants : decisionInstants authority.context now = none) :
    authorize options authority request consume now =
      explained (deny .invalidContext none) authority.grants.length .start none := by
  unfold authorize decideOnGrants
  dsimp only
  rw [hinstants]
  rfl

/-- So is a request that cannot be asked in the context. -/
theorem authorize_invalidRequest
    (hinstants : decisionInstants authority.context now = some instants)
    (hformed : requestIsWellFormed request authority.context = false) :
    authorize options authority request consume now =
      explained (deny .invalidRequest none) authority.grants.length .start none := by
  unfold authorize decideOnGrants
  dsimp only
  rw [hinstants, hformed]
  rfl

theorem authorize_eq_closeWalk (hinstants : decisionInstants authority.context now = some instants)
    (hformed : requestIsWellFormed request authority.context = true) :
    authorize options authority request consume now =
      closeWalk options authority request true
        (walkGrants options authority request capabilityMatches consume instants .start
          authority.grants).run := by
  unfold authorize decideOnGrants
  dsimp only [Bind.bind, Pure.pure, Id.run]
  rw [hinstants, hformed]
  dsimp only
  cases walkGrants options authority request capabilityMatches consume instants .start
    authority.grants <;> rfl

/-- **A decision, by outcomes.** The first grant that is usable carries the allow. Where there is
none, the outcomes name the reason. -/
theorem authorize_decides (hinstants : decisionInstants authority.context now = some instants)
    (hformed : requestIsWellFormed request authority.context = true)
    (hbudget : BudgetsAnswer options authority consume)
    (hceiling : CeilingAnswers options authority request) :
    (∃ grant, FirstQualifying options authority request consume instants grant ∧
      (authorize options authority request consume now).run.decision = allow grant.id) ∨
    ((∀ grant ∈ authority.grants, ¬ Qualifies options authority request consume instants grant) ∧
      (authorize options authority request consume now).run.decision.allowed = false ∧
      (authorize options authority request consume now).run.decision.reasonCode =
        denialReason (authority.grants.map
          (grantOutcome options authority request consume instants))) := by
  have hpassed : ∀ {grant : CapabilityGrant},
      (grantOutcome options authority request consume instants grant).passed →
        ¬ Qualifies options authority request consume instants grant :=
    fun h hqualifies => h.1 (grantOutcome_usable_iff.mpr hqualifies)
  have hwalked := @walkGrants_walked _ options authority request consume instants [] .start
    accounts_start authority.grants
  rw [show (authorize options authority request consume now).run = _ from
    authorize_eq_closeWalk hinstants hformed]
  generalize (walkGrants options authority request capabilityMatches consume instants .start
    authority.grants).run = consideration at hwalked
  cases hwalked with
  | @allowed before after grant walk hsplit husable hbefore =>
      exact .inl ⟨grant, ⟨before, after, hsplit, grantOutcome_usable_iff.mp husable,
        fun g hg => hpassed (hbefore g hg)⟩, rfl⟩
  | stopped hmem hmalfunctioned =>
      exact absurd hmalfunctioned (grantOutcome_ne_malfunctioned hmem hbudget hceiling)
  | through hall haccounts =>
      have hdenied := @denyWalk_reason _ options authority request _ _ haccounts true
      exact .inr ⟨fun g hg => hpassed (hall g hg), hdenied⟩

/-- **What an allow has behind it**, whatever the ports answer. -/
theorem allow_qualifies
    (hallowed : (authorize options authority request consume now).run.decision.allowed = true) :
    ∃ instants, decisionInstants authority.context now = some instants ∧
      requestIsWellFormed request authority.context = true ∧
      ∃ grant ∈ authority.grants,
        Qualifies options authority request consume instants grant := by
  cases hinstants : decisionInstants authority.context now with
  | none =>
      rw [authorize_invalidContext hinstants] at hallowed
      cases hallowed
  | some instants =>
      cases hformed : requestIsWellFormed request authority.context with
      | false =>
          rw [authorize_invalidRequest hinstants hformed] at hallowed
          cases hallowed
      | true =>
          have hwalked := @walkGrants_walked _ options authority request consume instants [] .start
            accounts_start authority.grants
          rw [show (authorize options authority request consume now).run = _ from
            authorize_eq_closeWalk hinstants hformed] at hallowed
          generalize (walkGrants options authority request capabilityMatches consume instants
            .start authority.grants).run = consideration at hwalked hallowed
          refine ⟨instants, rfl, rfl, ?_⟩
          cases hwalked with
          | @allowed before after grant walk hsplit husable hbefore =>
              refine ⟨grant, ?_, grantOutcome_usable_iff.mp husable⟩
              rw [hsplit]
              exact List.mem_append_right _ List.mem_cons_self
          | @stopped grant decision walk missing hmem hmalfunctioned hdenied =>
              replace hallowed : decision.allowed = true := hallowed
              rw [hdenied] at hallowed
              cases hallowed
          | @through walk hall haccounts =>
              have hdenied := @denyWalk_reason _ options authority request _ _ haccounts true
              replace hallowed :
                (denyWalk options authority request true walk).decision.allowed = true := hallowed
              rw [hdenied.1] at hallowed
              cases hallowed

/-- A grant that qualifies under a ceiling qualifies without it. -/
theorem Qualifies.uncapped {hostPolicy : Option PolicyResolution} {grant : CapabilityGrant}
    (h : Qualifies options { authority with hostPolicy } request consume instants grant) :
    Qualifies { options with hostCeiling := none } { authority with hostPolicy } request consume
      instants grant :=
  { h with accepted := fun ceiling hinstalled => by cases hinstalled }

/-- What a grant comes to by itself does not depend on the grants it is listed with. -/
theorem Qualifies.regranted {grants : List CapabilityGrant} {grant : CapabilityGrant}
    (h : Qualifies options { authority with grants } request consume instants grant) :
    Qualifies options authority request consume instants grant :=
  { h with }

/-- **Decision correctness.** At ports that answer, an allow names the first grant that qualifies,
and where none does the outcomes of the grants decide the reason, in whatever order they stand.
No ceiling turns a denial into an allow. -/
theorem decides_by_outcomes (hbudget : BudgetsAnswer options authority consume)
    (hceiling : CeilingAnswers options authority request) :
    (∀ id, ((authorize options authority request consume now).run.decision.allowed = true ∧
        (authorize options authority request consume now).run.decision.matchedGrantId = some id) ↔
      ∃ instants, decisionInstants authority.context now = some instants ∧
        requestIsWellFormed request authority.context = true ∧
        ∃ grant, FirstQualifying options authority request consume instants grant ∧
          grant.id = id) ∧
    (decisionInstants authority.context now = none →
      (authorize options authority request consume now).run.decision =
        deny .invalidContext none) ∧
    (∀ instants, decisionInstants authority.context now = some instants →
      requestIsWellFormed request authority.context = false →
      (authorize options authority request consume now).run.decision =
        deny .invalidRequest none) ∧
    (∀ instants, decisionInstants authority.context now = some instants →
      requestIsWellFormed request authority.context = true →
      (∀ grant ∈ authority.grants,
        ¬ Qualifies options authority request consume instants grant) →
      ∀ grants, authority.grants.Perm grants →
        (authorize options { authority with grants } request consume now).run.decision.allowed =
            false ∧
          (authorize options { authority with grants } request consume now).run.decision.reasonCode
            = denialReason (authority.grants.map
                (grantOutcome options authority request consume instants))) ∧
    ∀ ceiling hostPolicy,
      (authorize { options with hostCeiling := ceiling } { authority with hostPolicy } request
        consume now).run.decision.allowed = true →
      (authorize { options with hostCeiling := none } { authority with hostPolicy } request
        consume now).run.decision.allowed = true := by
  refine ⟨fun id => ⟨fun h => ?_, fun h => ?_⟩, fun hinstants => ?_, fun instants hinstants hformed
    => ?_, fun instants hinstants hformed hnone grants hperm => ?_, fun ceiling hostPolicy h => ?_⟩
  · obtain ⟨hallowed, hmatched⟩ := h
    obtain ⟨instants, hinstants, hformed, -⟩ := allow_qualifies hallowed
    refine ⟨instants, hinstants, hformed, ?_⟩
    rcases authorize_decides hinstants hformed hbudget hceiling with
      ⟨grant, hfirst, hdecision⟩ | ⟨-, hdenied, -⟩
    · rw [hdecision] at hmatched
      exact ⟨grant, hfirst, Option.some.inj hmatched⟩
    · rw [hdenied] at hallowed
      cases hallowed
  · obtain ⟨instants, hinstants, hformed, grant, hfirst, rfl⟩ := h
    rcases authorize_decides hinstants hformed hbudget hceiling with
      ⟨other, hother, hdecision⟩ | ⟨hnone, -⟩
    · rw [hdecision, FirstIn.unique hother hfirst]
      exact ⟨rfl, rfl⟩
    · exact absurd hfirst.holds (hnone grant (FirstIn.mem hfirst))
  · rw [authorize_invalidContext hinstants]
    rfl
  · rw [authorize_invalidRequest hinstants hformed]
    rfl
  -- the ports answer for the grants in any order, so the other list decides by the same lemma
  · have hbudget' : BudgetsAnswer options { authority with grants } consume :=
      fun grant hmem => hbudget grant (hperm.mem_iff.mpr hmem)
    have hceiling' : CeilingAnswers options { authority with grants } request :=
      fun installed hinstalled => ⟨(hceiling installed hinstalled).1, fun grant hmem =>
        (hceiling installed hinstalled).2 grant (hperm.mem_iff.mpr hmem)⟩
    rcases @authorize_decides _ options { authority with grants } request consume instants now
        hinstants hformed hbudget' hceiling' with
      ⟨grant, hfirst, -⟩ | ⟨-, hdenied, hreason⟩
    · exact absurd (Qualifies.regranted hfirst.holds)
        (hnone grant (hperm.mem_iff.mpr (FirstIn.mem hfirst)))
    · exact ⟨hdenied, hreason.trans (denialReason_perm (hperm.map _)).symm⟩
  -- what qualifies under a ceiling qualifies without one
  · obtain ⟨instants, hinstants, hformed, grant, hmem, hqualifies⟩ := allow_qualifies h
    have hceiling' : CeilingAnswers { options with hostCeiling := none }
        { authority with hostPolicy } request := fun installed hinstalled => by cases hinstalled
    rcases @authorize_decides _ { options with hostCeiling := none } { authority with hostPolicy }
        request consume instants now hinstants hformed hbudget hceiling' with
      ⟨first, -, hdecision⟩ | ⟨hnone, -⟩
    · rw [hdecision]
      rfl
    · exact absurd hqualifies.uncapped (hnone grant hmem)

end Decision

end Outcomes

namespace Sample

/-- The store has its answers ready, and there is no ceiling to ask. -/
theorem budgetsAnswer (authority : ResolvedAuthority) (consume : Bool) :
    BudgetsAnswer authorizer authority consume :=
  fun _ _ maximumUses _ => ⟨usageStore, decide (0 < maximumUses), rfl, by cases consume <;> rfl⟩

theorem ceilingAnswers (authority : ResolvedAuthority) (request : CapabilityRequirement) :
    CeilingAnswers authorizer authority request :=
  fun _ hinstalled => by cases hinstalled

/-- Another human's file. -/
def foreignFile : CapabilityRequirement where
  resource :=
    { «namespace» := "files", path := ["docs", "a"], owner := some (.human "stranger") }
  action := "read"

/-- A direct grant over it, issued all the same in this turn's world. -/
def foreignGrant : CapabilityGrant :=
  { leafGrant with
    id := "foreign"
    capabilities := [{ resource := foreignFile.resource, actions := ["read"], scope := .exact }]
    constraints := CapabilityConstraints.unbounded
    parentGrantId := none }

/-- The authority that holds that grant alone. -/
def foreignAuthority : ResolvedAuthority := { authority with grants := [foreignGrant] }

end Sample

open scoped SharedOS.Foundation.Reference in
theorem decides_by_outcomes_worker :
    ((authorize Sample.authorizer Sample.authority Sample.reading true
          none).run.decision.allowed = true ∧
        (authorize Sample.authorizer Sample.authority Sample.reading true
          none).run.decision.matchedGrantId = some Sample.leafGrant.id) ↔
      ∃ instants, decisionInstants Sample.authority.context none = some instants ∧
        requestIsWellFormed Sample.reading Sample.authority.context = true ∧
        ∃ grant, FirstQualifying Sample.authorizer Sample.authority Sample.reading true instants
          grant ∧ grant.id = Sample.leafGrant.id :=
  (decides_by_outcomes (Sample.budgetsAnswer _ _) (Sample.ceilingAnswers _ _)).1 _

open scoped SharedOS.Foundation.Reference in
/-- A grant may pass every check by itself and the request be refused before it is looked at: the
resource is not of the owner's world. -/
theorem foreign_resource_denied :
    ∃ instants grant, decisionInstants Sample.foreignAuthority.context none = some instants ∧
      FirstQualifying Sample.authorizer Sample.foreignAuthority Sample.foreignFile false instants
        grant ∧
      BudgetsAnswer Sample.authorizer Sample.foreignAuthority false ∧
      CeilingAnswers Sample.authorizer Sample.foreignAuthority Sample.foreignFile ∧
      (authorize Sample.authorizer Sample.foreignAuthority Sample.foreignFile false
        none).run.decision = deny .invalidRequest none := by
  refine ⟨⟨Sample.now, Sample.now⟩, Sample.foreignGrant, by rfl, ⟨[], [], rfl, ?_, by simp⟩,
    Sample.budgetsAnswer _ _, Sample.ceilingAnswers _ _, by rfl⟩
  exact grantOutcome_usable_iff.mp (by rfl)

end SharedOS.Core
