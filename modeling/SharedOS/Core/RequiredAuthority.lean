/-
SharedOS.Core.RequiredAuthority — a denial describes the least authority that would have satisfied
it.

A request nothing matched is denied with a description of one exact capability. Issuing that
capability is enough (`required_authority_suffices`): the walk that found nothing passes every
grant it had over again and takes the new one. And nothing smaller would have been enough
(`required_authority_least`): every capability that matches the request contains it.
-/
import SharedOS.Core.GrantOutcome

namespace SharedOS.Core

open SharedOS.Foundation SharedOS.Contracts

section Required

variable [HostPlatform]

/-- The capability a description names: one action on one path. -/
def requiredCapability (request : CapabilityRequirement) : Capability where
  resource := request.resource
  actions := [request.action]
  scope := .exact

/-- A root grant of what `r` asks for, issued by the context's authority, without bounds and in
force since before the context's instant. -/
structure GrantsRequired (context : AccessContext) (r : CapabilityRequest)
    (grant : CapabilityGrant) : Prop where
  issuer : grant.issuer = context.authority
  subject : grant.subject = r.requester
  sameNamespace : grant.namespaceId = r.namespaceId
  root : grant.parentGrantId = none
  unconstrained : grant.constraints = CapabilityConstraints.unbounded
  unrevoked : grant.revokedAt = none
  issued : ∃ t admittedAt, HostPlatform.dateParse grant.issuedAt = some t ∧
    HostPlatform.dateParse context.now = some admittedAt ∧ t ≤ admittedAt
  carries : ∀ c ∈ r.capabilities, c ∈ grant.capabilities

/-! ## What is described -/

omit [HostPlatform] in
/-- A requirement that is its own parse makes a capability that is its own parse. -/
theorem capabilitySchema_required {request : CapabilityRequirement}
    (h : capabilityRequirementSchema request = some request) :
    capabilitySchema (requiredCapability request) = some (requiredCapability request) := by
  unfold capabilityRequirementSchema at h
  simp only [Option.bind_eq_bind, Option.bind_eq_some_iff] at h
  obtain ⟨resource, hresource, action, haction, heq⟩ := h
  have hown := Option.some.inj heq
  rw [show resource = request.resource from congrArg CapabilityRequirement.resource hown] at hresource
  rw [show action = request.action from congrArg CapabilityRequirement.action hown] at haction
  have hactions : arraySchema actionSchema 1 64 [request.action] = some [request.action] :=
    arraySchema_eq_self_iff.mpr ⟨by simp, by simpa using haction⟩
  unfold capabilitySchema requiredCapability
  dsimp only
  rw [hresource, hactions]
  rfl

/-- **What a description names**: the context's own parties, and the one exact capability. -/
theorem describeRequiredAuthority_fields {context : AccessContext}
    {request : CapabilityRequirement} {r : CapabilityRequest}
    (hcontext : accessContextSchema context = some context)
    (hrequest : capabilityRequirementSchema request = some request)
    (h : describeRequiredAuthority context request = some r) :
    r.namespaceId = context.namespaceId ∧ r.requester = context.actor ∧
      r.capabilities = [requiredCapability request] := by
  obtain ⟨hns, hactor⟩ := accessContext_parties hcontext
  have hcapabilities : arraySchema capabilitySchema 1 64 [requiredCapability request] =
      some [requiredCapability request] :=
    arraySchema_eq_self_iff.mpr ⟨by simp, by simpa using capabilitySchema_required hrequest⟩
  unfold describeRequiredAuthority mintCapabilityRequest askSchema at h
  simp only [Option.bind_eq_bind, Option.bind_eq_some_iff] at h
  obtain ⟨asked, ⟨capabilities, hcaps, purpose, -, constraints, -, metadata, -, hasked⟩, h⟩ := h
  have hsame : capabilities = [requiredCapability request] :=
    Option.some.inj (hcaps.symm.trans hcapabilities)
  obtain rfl := Option.some.inj hasked
  unfold capabilityRequestSchema at h
  simp only [Option.bind_eq_bind, Option.bind_eq_some_iff] at h
  obtain ⟨id, -, namespaceId, hnamespace, requester, hrequester, owner, -, minted, hminted, purpose,
    -, constraints, -, requestedAt, -, metadata, -, h⟩ := h
  obtain rfl := Option.some.inj h
  rw [hsame, hcapabilities] at hminted
  refine ⟨?_, ?_, ?_⟩
  · exact Option.some.inj (hnamespace.symm.trans hns)
  · exact Option.some.inj (hrequester.symm.trans hactor)
  · exact (Option.some.inj hminted).symm

/-! ## What denies with a description -/

section Walk

variable {options : CapabilityAuthorizerOptions Id} {authority : ResolvedAuthority}
  {request : CapabilityRequirement} {consume : Bool} {instants : GrantInstants}
  {now : Option JsString} {r : CapabilityRequest}

omit [HostPlatform] in
/-- A budget decides without a description. -/
theorem spendGrant_undescribed {context : AccessContext} {grant : CapabilityGrant}
    {walk walk' : GrantWalk} {decision : AuthorizationDecision}
    {missing : Option MissingDependency}
    (h : spendGrant options context grant consume walk =
      Consideration.decided decision walk' missing) : decision.requiredAuthority = none := by
  unfold spendGrant at h
  cases hmax : grant.constraints.maxUses with
  | none =>
      rw [hmax] at h
      cases h
      rfl
  | some maximumUses =>
      rw [hmax] at h
      cases hstore : options.usageStore with
      | none =>
          rw [hstore] at h
          cases h
          rfl
      | some store =>
          rw [hstore] at h
          dsimp only [Bind.bind, Pure.pure] at h
          cases hleft : takeUse store context grant maximumUses consume with
          | rejected =>
              rw [hleft] at h
              cases h
              rfl
          | fulfilled left =>
              rw [hleft] at h
              cases left with
              | true =>
                  cases h
                  rfl
              | false => cases h

/-- No grant decides with a description: it is written only past the last one. -/
theorem considerGrant_undescribed (hceiling : options.hostCeiling = none) {grant : CapabilityGrant}
    {walk walk' : GrantWalk} {decision : AuthorizationDecision}
    {missing : Option MissingDependency}
    (h : considerGrant options authority request capabilityMatches consume instants walk grant =
      Consideration.decided decision walk' missing) : decision.requiredAuthority = none := by
  unfold considerGrant applyCeiling at h
  rw [hceiling] at h
  dsimp only [Bind.bind, Pure.pure] at h
  split at h
  · cases h
  · split at h
    · cases h
    · split at h
      · cases h
      · exact spendGrant_undescribed h

theorem walkGrants_undescribed (hceiling : options.hostCeiling = none)
    {grants : List CapabilityGrant} {walk walk' : GrantWalk} {decision : AuthorizationDecision}
    {missing : Option MissingDependency}
    (h : walkGrants options authority request capabilityMatches consume instants walk grants =
      Consideration.decided decision walk' missing) : decision.requiredAuthority = none := by
  induction grants generalizing walk with
  | nil => cases h
  | cons grant rest ih =>
      unfold walkGrants at h
      dsimp only [Bind.bind, Pure.pure] at h
      cases hstep : considerGrant options authority request capabilityMatches consume instants walk
          grant with
      | decided decision' walk'' missing' =>
          rw [hstep] at h
          cases h
          exact considerGrant_undescribed hceiling hstep
      | next walk'' =>
          rw [hstep] at h
          exact ih h

/-- Past the last grant, a description is written only where nothing else is to be said. -/
theorem described_of_denyWalk {outcomes : List GrantOutcome} {walk : GrantWalk}
    (haccounts : Accounts outcomes walk)
    (hcode : (denyWalk options authority request true walk).decision.reasonCode = .noMatchingGrant)
    (h : (denyWalk options authority request true walk).decision.requiredAuthority = some r) :
    describeRequiredAuthority authority.context request = some r := by
  unfold denyWalk at hcode h
  cases hfailure : walk.delegationFailure with
  | some failure =>
      rw [hfailure] at h
      cases h
  | none =>
      rw [hfailure] at hcode h
      dsimp only at hcode h
      cases hdenial : walk.policyDenial with
      | some denial =>
          rw [hdenial] at hcode
          replace hcode : denial.reasonCode = .noMatchingGrant := hcode
          rw [(haccounts.refusal denial hdenial).2] at hcode
          cases hcode
      | none =>
          rw [hdenial] at h
          dsimp only at h
          split at h
          · cases h
          · exact h

/-- **A denial with a description has passed every grant over.** -/
theorem passed_of_described (hceiling : options.hostCeiling = none)
    (hcode : (authorize options authority request consume now).run.decision.reasonCode =
      .noMatchingGrant)
    (h : (authorize options authority request consume now).run.decision.requiredAuthority =
      some r) :
    ∃ instants, decisionInstants authority.context now = some instants ∧
      requestIsWellFormed request authority.context = true ∧
      (∀ g ∈ authority.grants,
        (grantOutcome options authority request consume instants g).passed) ∧
      describeRequiredAuthority authority.context request = some r := by
  cases hinstants : decisionInstants authority.context now with
  | none =>
      rw [authorize_invalidContext hinstants] at h
      cases h
  | some instants =>
      cases hformed : requestIsWellFormed request authority.context with
      | false =>
          rw [authorize_invalidRequest hinstants hformed] at h
          cases h
      | true =>
          refine ⟨instants, rfl, rfl, ?_⟩
          have hwalked := @walkGrants_walked _ options authority request consume instants [] .start
            accounts_start authority.grants
          rw [show (authorize options authority request consume now).run = _ from
            authorize_eq_closeWalk hinstants hformed] at h hcode
          cases hwalk : (walkGrants options authority request capabilityMatches consume instants
              .start authority.grants).run with
          | decided decision walk missing =>
              rw [hwalk] at h
              replace h : decision.requiredAuthority = some r := h
              rw [walkGrants_undescribed hceiling hwalk] at h
              cases h
          | next walk =>
              rw [hwalk] at h hcode hwalked
              cases hwalked with
              | through hall haccounts => exact ⟨hall, described_of_denyWalk haccounts hcode h⟩

/-! ## Issuing what was described -/

/-- A root grant of what was described qualifies, at the instants of the denial. -/
theorem GrantsRequired.qualifies {grant : CapabilityGrant}
    (hgrant : GrantsRequired authority.context r grant)
    (hfields : r.namespaceId = authority.context.namespaceId ∧
      r.requester = authority.context.actor ∧ r.capabilities = [requiredCapability request])
    (hinstants : decisionInstants authority.context now = some instants)
    (hceiling : options.hostCeiling = none)
    (hverifier : VerifierAccepts options authority.context grant) :
    Qualifies options authority request consume instants grant := by
  obtain ⟨hns, hrequester, hcapabilities⟩ := hfields
  have hactive : Active grant authority.context.purpose instants := by
    obtain ⟨t, admittedAt, ht, hadmitted, hle⟩ := hgrant.issued
    have hat := (decisionInstants_iff.mp hinstants).1
    rw [hadmitted, Option.some.injEq] at hat
    refine ⟨⟨t, ht, hat ▸ hle⟩, ?_, ?_, ?_, ?_⟩
    · rw [hgrant.unconstrained]
      exact fun s hs => (by cases hs)
    · rw [hgrant.unconstrained]
      exact fun s hs => (by cases hs)
    · rw [hgrant.unrevoked]
      exact fun s hs => (by cases hs)
    · rw [hgrant.unconstrained]
      exact fun ps hps => (by cases hps)
  have hmatch : capabilityMatches (requiredCapability request) request authority.context = true :=
    capabilityMatches_iff.mpr ⟨rfl, .inl (List.mem_singleton_self _), rfl, PathRegion.mem_node.mpr rfl⟩
  refine ⟨hgrant.issuer, hgrant.subject.trans hrequester, hgrant.sameNamespace.trans hns, hactive,
    hverifier, ⟨requiredCapability request, hgrant.carries _ ?_, hmatch⟩, ⟨[], ?_⟩, ?_, ?_⟩
  · rw [hcapabilities]
    exact List.mem_singleton_self _
  · exact validates_iff.mpr ⟨[], .root hgrant.root, by simp, by simp, rfl⟩
  · intro ceiling hinstalled
    rw [hceiling] at hinstalled
    cases hinstalled
  · intro maximumUses hmax
    rw [hgrant.unconstrained] at hmax
    cases hmax

/-- A walk that passes every grant but a usable one takes the usable one. -/
theorem authorize_inserted {before after : List CapabilityGrant} {grant : CapabilityGrant}
    (hinstants : decisionInstants authority.context now = some instants)
    (hformed : requestIsWellFormed request authority.context = true)
    (hpassed : ∀ g ∈ before ++ after,
      (grantOutcome options authority request consume instants g).passed)
    (husable : grantOutcome options authority request consume instants grant = .usable) :
    (authorize options { authority with grants := before ++ grant :: after } request consume
      now).run.decision = allow grant.id := by
  have hothers : ∀ g ∈ before ++ grant :: after, g = grant ∨
      (grantOutcome options authority request consume instants g).passed := by
    intro g hg
    rcases List.mem_append.mp hg with hin | hin
    · exact .inr (hpassed g (List.mem_append_left _ hin))
    · rcases List.mem_cons.mp hin with heq | hin
      · exact .inl heq
      · exact .inr (hpassed g (List.mem_append_right _ hin))
  have hwalked := @walkGrants_walked _ options
    { authority with grants := before ++ grant :: after } request consume instants [] .start
    accounts_start (before ++ grant :: after)
  rw [show (authorize options { authority with grants := before ++ grant :: after } request consume
    now).run = _ from authorize_eq_closeWalk hinstants hformed]
  generalize (walkGrants options { authority with grants := before ++ grant :: after } request
    capabilityMatches consume instants .start (before ++ grant :: after)).run = consideration
    at hwalked
  cases hwalked with
  | @allowed front back found walk hsplit hfound hbefore =>
      have hmem : found ∈ before ++ grant :: after := by
        rw [hsplit]
        exact List.mem_append_right _ List.mem_cons_self
      rcases hothers found hmem with rfl | hpass
      · rfl
      · exact absurd hfound hpass.1
  | @stopped found decision walk missing hmem hmalfunctioned hdenied =>
      rcases hothers found hmem with rfl | hpass
      · have hboth := husable.symm.trans hmalfunctioned
        cases hboth
      · exact absurd hmalfunctioned hpass.2
  | @through walk hall haccounts =>
      exact absurd husable (hall grant (List.mem_append_right _ List.mem_cons_self)).1

end Walk

/-- Every capability that matches a request contains the one exact capability it describes. -/
theorem required_within_of_matches {capability : Capability} {request : CapabilityRequirement}
    {context : AccessContext} (h : capabilityMatches capability request context = true) :
    capabilityIsWithin (requiredCapability request) capability context.owner = true := by
  obtain ⟨hns, hact, hown, hpath⟩ := capabilityMatches_iff.mp h
  refine capabilityIsWithin_iff.mpr ⟨hns.symm, hown.symm, ?_, PathRegion.node_subset.mpr hpath⟩
  rcases hact with hlisted | hany
  · refine .inr ?_
    intro a ha
    rw [List.mem_singleton.mp ha]
    exact hlisted
  · exact .inl hany

/-- **A denial describes the least authority that would have satisfied it.** Issued as a root
grant, anywhere among the grants, what it describes is enough, and every capability that matches
the request contains it. -/
theorem required_authority_least {options : CapabilityAuthorizerOptions Id}
    {authority : ResolvedAuthority} {request : CapabilityRequirement} {consume : Bool}
    {now : Option JsString} {r : CapabilityRequest}
    (hcontext : accessContextSchema authority.context = some authority.context)
    (hrequest : capabilityRequirementSchema request = some request)
    (hceiling : options.hostCeiling = none)
    (hcode : (authorize options authority request consume now).run.decision.reasonCode =
      .noMatchingGrant)
    (hrequired : (authorize options authority request consume now).run.decision.requiredAuthority =
      some r) :
    (∀ before after grant, authority.grants = before ++ after →
      GrantsRequired authority.context r grant →
      VerifierAccepts options authority.context grant →
      (authorize options { authority with grants := before ++ grant :: after } request consume
        now).run.decision = allow grant.id) ∧
    ∃ required, r.capabilities = [required] ∧ ∀ capability,
      capabilityMatches capability request authority.context = true →
        capabilityIsWithin required capability authority.context.owner = true := by
  obtain ⟨instants, hinstants, hformed, hpassed, hdescribed⟩ :=
    passed_of_described hceiling hcode hrequired
  have hfields := describeRequiredAuthority_fields hcontext hrequest hdescribed
  refine ⟨?_, requiredCapability request, hfields.2.2, fun _ => required_within_of_matches⟩
  intro before after grant hsplit hgrant hverifier
  rw [hsplit] at hpassed
  exact authorize_inserted hinstants hformed hpassed
    (grantOutcome_usable_iff.mpr (hgrant.qualifies hfields hinstants hceiling hverifier))

end Required

namespace Sample

/-- The document next to the one the worker was given. -/
def neighbour : CapabilityRequirement where
  resource := { «namespace» := "files", path := ["docs", "b"], owner := none }
  action := "read"

/-- What the worker is told it lacks. -/
def missing : CapabilityRequest where
  id := JsString.ofString "capreq-" ++ List.replicate 64 0x30
  namespaceId := "ns"
  requester := .agent "worker"
  owner := .human "owner"
  capabilities := [requiredCapability neighbour]
  purpose := "work"
  constraints := none
  requestedAt := context.now
  metadata := none

/-- The grant a human issues for what was missing. -/
def issuedGrant : CapabilityGrant where
  id := "issued"
  namespaceId := "ns"
  subject := .agent "worker"
  issuer := .agent "lead"
  capabilities := missing.capabilities
  constraints := CapabilityConstraints.unbounded
  issuedAt := context.now
  revokedAt := none
  parentGrantId := none
  metadata := none

open scoped SharedOS.Foundation.Reference in
theorem issuedGrant_required : GrantsRequired context missing issuedGrant where
  issuer := rfl
  subject := rfl
  sameNamespace := rfl
  root := rfl
  unconstrained := rfl
  unrevoked := rfl
  issued := ⟨now, now, by rfl, by rfl, le_rfl⟩
  carries := fun _ hc => hc

end Sample

open scoped SharedOS.Foundation.Reference in
theorem required_authority_least_neighbour :
    (authorize Sample.authorizer
        { Sample.authority with grants := [Sample.leafGrant, Sample.issuedGrant, Sample.ticket] }
        Sample.neighbour true none).run.decision = allow Sample.issuedGrant.id ∧
      ∃ required, Sample.missing.capabilities = [required] ∧ ∀ capability,
        capabilityMatches capability Sample.neighbour Sample.context = true →
          capabilityIsWithin required capability Sample.context.owner = true := by
  have hleast := @required_authority_least _ Sample.authorizer Sample.authority Sample.neighbour
    true none Sample.missing (by decide +kernel) (by decide +kernel) rfl (by rfl)
    (by rfl)
  exact ⟨hleast.1 [Sample.leafGrant] [Sample.ticket] Sample.issuedGrant rfl
    Sample.issuedGrant_required (fun _ h => (by cases h)), hleast.2⟩

end SharedOS.Core
