/-
SharedOS.Core.DecisionLaws — discovery, growth of the grant set, and the clock.

Three laws of the decisions taken without consumption and without a host ceiling. Discovery agrees
with invocation: a tool is offered exactly when some call beneath its declared capability would be
authorized. A grant set that allows a request goes on allowing it when grants are added, up to one
exit of the walk: a grant whose budget cannot be read decides against wherever it stands. And the
operation's clock only ever takes authority away.
-/
import SharedOS.Core.Reach

namespace SharedOS.Core

open SharedOS.Foundation SharedOS.Contracts

/-! ## Discovery agrees with invocation -/

section Discovery

variable [HostPlatform] {options : CapabilityAuthorizerOptions Id} {authority : ResolvedAuthority}
  {now : Option JsString}

/-- The call that asks for `declared` at a path beneath it. -/
def callAt (declared : CapabilityRequirement) (path : List JsString) : CapabilityRequirement :=
  { declared with resource := { declared.resource with path } }

/-- **A tool is discoverable exactly when some call beneath its declared capability is
authorized.** -/
theorem discovers_iff_authorizes_beneath {declared : CapabilityRequirement}
    (hceiling : options.hostCeiling = none) (hstore : StoreAnswers options) :
    Discovers options authority declared now ↔
      ∃ request : CapabilityRequirement, request.action = declared.action ∧
        request.resource.namespace = declared.resource.namespace ∧
        request.resource.owner.getD authority.context.owner =
          declared.resource.owner.getD authority.context.owner ∧
        declared.resource.path <+: request.resource.path ∧
        Authorizes options authority request now := by
  rw [discovers_iff_usable hceiling hstore]
  constructor
  · rintro ⟨instants, hinstants, hformed, grant, hgrant, husable⟩
    obtain ⟨c, hc, hmeets⟩ := husable.carries.covered
    obtain ⟨path, hbelow, hpermits⟩ := capabilityIntersectsCeiling_iff.mp hmeets
    -- the call at the very path the intersection names
    refine ⟨callAt declared path, rfl, rfl, rfl, hbelow, ?_⟩
    refine (authorizes_iff_usable hceiling hstore).mpr ⟨instants, hinstants, hformed, grant,
      hgrant, ⟨husable.carries.eligible, c, hc, ?_⟩, husable.budget⟩
    exact capabilityMatches_iff.mpr hpermits
  · rintro ⟨request, hact, hns, hown, hbelow, hauth⟩
    obtain ⟨instants, hinstants, hformed, grant, hgrant, husable⟩ :=
      (authorizes_iff_usable hceiling hstore).mp hauth
    rw [requestIsWellFormed_iff, hact, hns, hown] at hformed
    obtain ⟨c, hc, hmatch⟩ := husable.carries.covered
    refine ⟨instants, hinstants, requestIsWellFormed_iff.mpr hformed, grant, hgrant,
      ⟨husable.carries.eligible, c, hc, ?_⟩, husable.budget⟩
    refine capabilityIntersectsCeiling_iff.mpr ⟨request.resource.path, hbelow, ?_⟩
    -- the request differs from the declaration in its path alone
    have hsame : accessOf request authority.context.owner =
        { accessOf declared authority.context.owner with path := request.resource.path } := by
      unfold accessOf
      rw [hact, hns, hown]
    rw [← hsame]
    exact capabilityMatches_iff.mp hmatch

end Discovery

open scoped SharedOS.Foundation.Reference in
theorem discovers_iff_authorizes_beneath_worker :
    Discovers Sample.authorizer Sample.authority Sample.reading none ↔
      ∃ request : CapabilityRequirement, request.action = Sample.reading.action ∧
        request.resource.namespace = Sample.reading.resource.namespace ∧
        request.resource.owner.getD Sample.authority.context.owner =
          Sample.reading.resource.owner.getD Sample.authority.context.owner ∧
        Sample.reading.resource.path <+: request.resource.path ∧
        Authorizes Sample.authorizer Sample.authority request none :=
  discovers_iff_authorizes_beneath rfl Sample.storeAnswers

/-! ## Growth of the grant set -/

section Growth

variable [HostPlatform] {options : CapabilityAuthorizerOptions Id}

/-- Some bounded grant that carries the request, and whose budget cannot be read, stands before
every grant that could be used. -/
def UnreadableShadows (options : CapabilityAuthorizerOptions Id) (authority : ResolvedAuthority)
    (request : CapabilityRequirement) (now : Option JsString) (grants : List CapabilityGrant) :
    Prop :=
  ∃ instants, decisionInstants authority.context now = some instants ∧
    Shadowed
      (Usable options authority.context instants (capabilityMatches · request authority.context))
      (Unreadable options authority.context instants
        (capabilityMatches · request authority.context))
      grants

/-- A list that holds every grant of an allowed list is allowed unless an unreadable grant shadows
it. -/
theorem authorizes_superset_iff {authority : ResolvedAuthority} {request : CapabilityRequirement}
    {now : Option JsString} {grants : List CapabilityGrant}
    (hceiling : options.hostCeiling = none) (hallowed : Authorizes options authority request now)
    (hsub : ∀ grant ∈ authority.grants, grant ∈ grants) :
    Authorizes options { authority with grants } request now ↔
      ¬ UnreadableShadows options authority request now grants := by
  obtain ⟨instants, hinstants, hformed, hscan⟩ := (authorizes_iff hceiling).mp hallowed
  have hex : ∃ grant ∈ grants, Usable options authority.context instants
      (capabilityMatches · request authority.context) grant := by
    obtain ⟨before, grant, after, hsplit, husable, _⟩ := scanAllows_iff.mp hscan
    refine ⟨grant, hsub grant ?_, husable⟩
    rw [hsplit]
    exact List.mem_append_right _ (List.mem_cons_self ..)
  have hshadow := scanAllows_iff_not_shadowed
    (fun grant (h : Usable options authority.context instants
      (capabilityMatches · request authority.context) grant) => h.not_unreadable) hex
  rw [authorizes_iff hceiling]
  constructor
  · rintro ⟨instants', hinstants', _, hscan'⟩ ⟨instants'', hinstants'', hshadowed⟩
    have hsame := Option.some.inj (hinstants'.symm.trans hinstants)
    have hsame' := Option.some.inj (hinstants''.symm.trans hinstants)
    rw [hsame] at hscan'
    rw [hsame'] at hshadowed
    exact hshadow.mp hscan' hshadowed
  · intro hnot
    refine ⟨instants, hinstants, hformed, hshadow.mpr fun hshadowed => ?_⟩
    exact hnot ⟨instants, hinstants, hshadowed⟩

/-- **When authority is monotone in the grant set.** Grants inserted anywhere into an allowed list
leave it allowed exactly when no unreadable grant shadows the result. The same condition decides
whether the order in which one snapshot's grants were returned matters. -/
theorem authorizes_monotone_iff {authority : ResolvedAuthority} {request : CapabilityRequirement}
    {now : Option JsString} (hceiling : options.hostCeiling = none)
    (hallowed : Authorizes options authority request now) :
    (∀ grants, authority.grants.Sublist grants →
      (Authorizes options { authority with grants } request now ↔
        ¬ UnreadableShadows options authority request now grants)) ∧
    ∀ grants, authority.grants.Perm grants →
      takeSnapshot authority.grants authority.context.now =
        takeSnapshot grants authority.context.now ∧
      (Authorizes options { authority with grants } request now ↔
        ¬ UnreadableShadows options authority request now grants) := by
  refine ⟨fun grants hsub => ?_, fun grants hperm => ⟨takeSnapshot_perm hperm _, ?_⟩⟩
  · exact authorizes_superset_iff hceiling hallowed fun grant hmem => hsub.subset hmem
  · exact authorizes_superset_iff hceiling hallowed fun grant hmem => hperm.mem_iff.mp hmem

end Growth

open scoped SharedOS.Foundation.Reference in
theorem authorizes_monotone_iff_worker :
    (∀ grants, Sample.authority.grants.Sublist grants →
      (Authorizes Sample.authorizer { Sample.authority with grants } Sample.reading none ↔
        ¬ UnreadableShadows Sample.authorizer Sample.authority Sample.reading none grants)) ∧
    ∀ grants, Sample.authority.grants.Perm grants →
      takeSnapshot Sample.authority.grants Sample.authority.context.now =
        takeSnapshot grants Sample.authority.context.now ∧
      (Authorizes Sample.authorizer { Sample.authority with grants } Sample.reading none ↔
        ¬ UnreadableShadows Sample.authorizer Sample.authority Sample.reading none grants) :=
  authorizes_monotone_iff rfl (by rfl)

/-- An authorizer without a usage store. -/
def Sample.storeless : CapabilityAuthorizerOptions Id :=
  { Sample.authorizer with usageStore := none }

open scoped SharedOS.Foundation.Reference in
/-- Without a usage store, the unbounded grant allows the reading, alone or first. Behind the
bounded one it does not, in the same snapshot. -/
theorem bounded_grant_shadows_unbounded :
    Authorizes Sample.storeless { Sample.authority with grants := [Sample.leafGrant] }
        Sample.reading none ∧
      Authorizes Sample.storeless
        { Sample.authority with grants := [Sample.leafGrant, Sample.ticket] }
        Sample.reading none ∧
      ¬ Authorizes Sample.storeless
        { Sample.authority with grants := [Sample.ticket, Sample.leafGrant] }
        Sample.reading none ∧
      takeSnapshot [Sample.leafGrant, Sample.ticket] Sample.authority.context.now =
        takeSnapshot [Sample.ticket, Sample.leafGrant] Sample.authority.context.now := by
  refine ⟨by rfl, by rfl, fun h => ?_, takeSnapshot_perm (List.Perm.swap _ _ _) _⟩
  exact Bool.noConfusion (show false = true from h)

/-! ## The clock -/

section Clock

variable [HostPlatform] {options : CapabilityAuthorizerOptions Id} {authority : ResolvedAuthority}
  {context : AccessContext} {earlier later : GrantInstants}

/-- The earlier instants judge admission alike and observe expiry no later. -/
structure NoLater (earlier later : GrantInstants) : Prop where
  admitted : earlier.admittedAt = later.admittedAt
  expiry : earlier.expiryObservedAt ≤ later.expiryObservedAt

theorem Active.sooner {grant : CapabilityGrant} {purpose : JsString}
    (hle : NoLater earlier later) (h : Active grant purpose later) :
    Active grant purpose earlier where
  issued := by rw [hle.admitted]; exact h.issued
  started := by rw [hle.admitted]; exact h.started
  unexpired s hs := by
    obtain ⟨t, ht, hlt⟩ := h.unexpired s hs
    exact ⟨t, ht, lt_of_le_of_lt hle.expiry hlt⟩
  unrevoked := by rw [hle.admitted]; exact h.unrevoked
  purposed := h.purposed

theorem SoundLink.sooner {child parent : CapabilityGrant} (hle : NoLater earlier later)
    (h : SoundLink child parent context later) : SoundLink child parent context earlier :=
  { h with active := h.active.sooner hle }

theorem Ancestry.sooner {resolver : Option (DelegationChainResolver Id)}
    {grant : CapabilityGrant} {ps : List CapabilityGrant} (hle : NoLater earlier later)
    (h : Ancestry resolver context later grant ps) : Ancestry resolver context earlier grant ps := by
  induction h with
  | root hroot => exact .root hroot
  | link hparent hport hanswer hsound _ ih =>
      exact .link hparent hport hanswer (hsound.sooner hle) ih

omit [HostPlatform] in
/-- A chain check contributes no failure exactly when it accepts some chain. -/
theorem delegationFailureOf_eq_none_iff {validation : DelegationValidation} :
    delegationFailureOf validation = none ↔ ∃ chain, validation = .valid chain := by
  cases validation <;> simp [delegationFailureOf]

theorem Eligible.sooner {grant : CapabilityGrant} (hle : NoLater earlier later)
    (h : Eligible options context later grant) : Eligible options context earlier grant where
  unrejected := by
    obtain ⟨hissuer, hsubject, hnamespace, hactive, hverifier⟩ :=
      grantRejection_eq_none_iff.mp h.unrejected
    exact grantRejection_eq_none_iff.mpr
      ⟨hissuer, hsubject, hnamespace, hactive.sooner hle, hverifier⟩
  chained := by
    obtain ⟨chain, hchain⟩ := delegationFailureOf_eq_none_iff.mp h.chained
    obtain ⟨ps, hps, hnodup, hlen, hids⟩ := validates_iff.mp hchain
    exact delegationFailureOf_eq_none_iff.mpr
      ⟨chain, validates_iff.mpr ⟨ps, hps.sooner hle, hnodup, hlen, hids⟩⟩

theorem Usable.sooner {covers : Capability → Bool} {grant : CapabilityGrant}
    (hle : NoLater earlier later) (h : Usable options context later covers grant) :
    Usable options context earlier covers grant :=
  ⟨⟨h.carries.eligible.sooner hle, h.carries.covered⟩, h.budget⟩

theorem Listed.sooner {grants : List CapabilityGrant} {entry : ResourceReach}
    (hle : NoLater earlier later) (h : Listed options context later grants entry) :
    Listed options context earlier grants entry := by
  obtain ⟨grant, hgrant, hcontributes, hc⟩ := h
  exact ⟨grant, hgrant, ⟨hcontributes.eligible.sooner hle, hcontributes.budget⟩, hc⟩

theorem decisionInstants_iff {now : Option JsString} {instants : GrantInstants} :
    decisionInstants context now = some instants ↔
      HostPlatform.dateParse context.now = some instants.admittedAt ∧
        operationInstant context now = some instants.now ∧
        context.purpose ≠ [] ∧ context.traceId ≠ [] := by
  unfold decisionInstants
  rw [parseTimestamp_some]
  cases hadmitted : HostPlatform.dateParse context.now with
  | none => simp
  | some admittedAt =>
      cases hnow : operationInstant context now with
      | none => simp
      | some operationNow =>
          dsimp only
          cases instants
          split_ifs with hempty
          · refine iff_of_false (by simp) ?_
            rintro ⟨_, _, hpurpose, htrace⟩
            exact hempty.elim (fun h => hpurpose (List.length_eq_zero_iff.mp h))
              fun h => htrace (List.length_eq_zero_iff.mp h)
          · simp only [List.length_eq_zero_iff, not_or] at hempty
            simp [hempty]

/-- Instants a decision can be taken at, seen from an operation at `t`, where `t` is no later or
is the admission instant, which expiry is never observed before. -/
theorem decisionInstants_sooner {now now' : Option JsString} {t t' : Int}
    (ht : operationInstant context now = some t) (ht' : operationInstant context now' = some t')
    (hle : t ≤ t' ∨ HostPlatform.dateParse context.now = some t)
    (h : decisionInstants context now' = some later) :
    ∃ earlier, decisionInstants context now = some earlier ∧ NoLater earlier later := by
  obtain ⟨hadmitted, hnow', hpurpose, htrace⟩ := decisionInstants_iff.mp h
  refine ⟨⟨later.admittedAt, t⟩, decisionInstants_iff.mpr ⟨hadmitted, ht, hpurpose, htrace⟩,
    rfl, ?_⟩
  show max later.admittedAt t ≤ max later.admittedAt later.now
  have hsame := Option.some.inj (hnow'.symm.trans ht')
  rcases hle with hle | hadmission
  · omega
  · have hadmission := Option.some.inj (hadmission.symm.trans hadmitted)
    omega

/-- **The operation clock can only take authority away.** What is allowed at one operation instant
is allowed at every earlier one, and at the admission instant. -/
theorem clock_only_narrows {now now' : Option JsString} {t t' : Int}
    (hceiling : options.hostCeiling = none) (hstore : StoreAnswers options)
    (ht : operationInstant authority.context now = some t)
    (ht' : operationInstant authority.context now' = some t')
    (hle : t ≤ t' ∨ HostPlatform.dateParse authority.context.now = some t) :
    (∀ request, Authorizes options authority request now' →
      Authorizes options authority request now) ∧
    (∀ declared, Discovers options authority declared now' →
      Discovers options authority declared now) ∧
    ∃ entries entries', reach options authority now = ReachResult.computed entries ∧
      reach options authority now' = ReachResult.computed entries' ∧
      ∀ entry ∈ entries', entry ∈ entries := by
  refine ⟨fun request h => ?_, fun declared h => ?_, ?_⟩
  · rw [authorizes_iff_usable hceiling hstore] at h ⊢
    obtain ⟨later, hlater, hformed, grant, hgrant, husable⟩ := h
    -- both instants of the earlier decision come no later than those of the later one
    obtain ⟨earlier, hearlier, hle⟩ := decisionInstants_sooner ht ht' hle hlater
    exact ⟨earlier, hearlier, hformed, grant, hgrant, husable.sooner hle⟩
  · rw [discovers_iff_usable hceiling hstore] at h ⊢
    obtain ⟨later, hlater, hformed, grant, hgrant, husable⟩ := h
    obtain ⟨earlier, hearlier, hle⟩ := decisionInstants_sooner ht ht' hle hlater
    exact ⟨earlier, hearlier, hformed, grant, hgrant, husable.sooner hle⟩
  · obtain ⟨entries, heq, _, hmem⟩ := @reach_computed _ options authority now hstore
    obtain ⟨entries', heq', _, hmem'⟩ := @reach_computed _ options authority now' hstore
    refine ⟨_, _, heq, heq', fun entry hentry => ?_⟩
    obtain ⟨later, hlater, hlisted⟩ := (hmem' entry).mp (mem_sortByKey.mp hentry)
    obtain ⟨earlier, hearlier, hle⟩ := decisionInstants_sooner ht ht' hle hlater
    exact mem_sortByKey.mpr
      ((hmem entry).mpr ⟨earlier, hearlier, Listed.sooner hle hlisted⟩)

end Clock

open scoped SharedOS.Foundation.Reference in
theorem clock_only_narrows_worker :
    (∀ request, Authorizes Sample.authorizer Sample.authority request
        (some "2026-03-02T00:00:00Z") →
      Authorizes Sample.authorizer Sample.authority request none) ∧
    (∀ declared, Discovers Sample.authorizer Sample.authority declared
        (some "2026-03-02T00:00:00Z") →
      Discovers Sample.authorizer Sample.authority declared none) ∧
    ∃ entries entries',
      reach Sample.authorizer Sample.authority none = ReachResult.computed entries ∧
      reach Sample.authorizer Sample.authority (some "2026-03-02T00:00:00Z") =
        ReachResult.computed entries' ∧
      ∀ entry ∈ entries', entry ∈ entries :=
  @clock_only_narrows _ _ _ _ _ 1772323200000 1772409600000 rfl Sample.storeAnswers (by rfl)
    (by rfl) (.inl (by decide))

end SharedOS.Core
