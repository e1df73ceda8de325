/-
SharedOS.Core.GrantWalk — what a decision without consumption decides.

At fixed ports a decision is a function of its inputs, and with no host ceiling the walk over the
grants is a scan: a grant that carries the request and has a use left decides for, one that
carries it and whose budget cannot be read decides against, and every other grant is passed over.
`authorizes_iff` and `discovers_iff` say so for the two entry points. Nothing above this module
unfolds the walk.
-/
import SharedOS.Core.Authorization
import SharedOS.Foundation.Scan

namespace SharedOS.Core

open SharedOS.Foundation SharedOS.Contracts

variable [HostPlatform]

/-- `authorize` without consumption allows the request. -/
def Authorizes (options : CapabilityAuthorizerOptions Id) (authority : ResolvedAuthority)
    (request : CapabilityRequirement) (now : Option JsString) : Prop :=
  (authorize options authority request false now).run.decision.allowed = true

/-- `canDiscover` allows the declared capability. -/
def Discovers (options : CapabilityAuthorizerOptions Id) (authority : ResolvedAuthority)
    (ceiling : CapabilityRequirement) (now : Option JsString) : Prop :=
  (canDiscover options authority ceiling now).run.decision.allowed = true

/-- The usage store is there and answers every question. -/
def StoreAnswers (options : CapabilityAuthorizerOptions Id) : Prop :=
  ∃ store, options.usageStore = some store ∧ ∀ namespaceId grantId, ∃ used,
    store.getUsage namespaceId grantId = Settled.fulfilled used

/-! ## One grant -/

/-- The grant passes every check that reads neither the request nor its budget. -/
structure Eligible (options : CapabilityAuthorizerOptions Id) (context : AccessContext)
    (instants : GrantInstants) (grant : CapabilityGrant) : Prop where
  unrejected : grantRejection options context grant instants = (none : Option GrantRejectionReason)
  chained : delegationFailureOf (validateDelegation options context grant instants) = none

/-- The grant is eligible and one of its capabilities covers what is asked. -/
structure Carries (options : CapabilityAuthorizerOptions Id) (context : AccessContext)
    (instants : GrantInstants) (covers : Capability → Bool) (grant : CapabilityGrant) : Prop where
  eligible : Eligible options context instants grant
  covered : ∃ c ∈ grant.capabilities, covers c = true

/-- The grant carries the request and has a use left. -/
structure Usable (options : CapabilityAuthorizerOptions Id) (context : AccessContext)
    (instants : GrantInstants) (covers : Capability → Bool) (grant : CapabilityGrant) : Prop where
  carries : Carries options context instants covers grant
  budget : budgetLeft options context grant = BudgetStatus.available

/-- The grant carries the request, and whether it has a use left cannot be read. -/
structure Unreadable (options : CapabilityAuthorizerOptions Id) (context : AccessContext)
    (instants : GrantInstants) (covers : Capability → Bool) (grant : CapabilityGrant) : Prop where
  carries : Carries options context instants covers grant
  budget : budgetLeft options context grant = BudgetStatus.unavailable

/-- The scan of the grants ends in favour of what is asked. -/
def GrantsAllow (options : CapabilityAuthorizerOptions Id) (context : AccessContext)
    (instants : GrantInstants) (covers : Capability → Bool) (grants : List CapabilityGrant) :
    Prop :=
  ScanAllows (Usable options context instants covers) (Unreadable options context instants covers)
    grants

/-- The verifier, where one is installed, vouches for the grant. -/
def VerifierAccepts (options : CapabilityAuthorizerOptions Id) (context : AccessContext)
    (grant : CapabilityGrant) : Prop :=
  ∀ verifier, options.grantVerifier = some verifier →
    verifier.verify grant context = Settled.fulfilled true

/-- What a grant that is not rejected has passed. Only the activity check reads the clock. -/
theorem grantRejection_eq_none_iff {options : CapabilityAuthorizerOptions Id}
    {context : AccessContext} {grant : CapabilityGrant} {instants : GrantInstants} :
    grantRejection options context grant instants = (none : Option GrantRejectionReason) ↔
      grant.issuer = context.authority ∧ grant.subject = context.actor ∧
        grant.namespaceId = context.namespaceId ∧ Active grant context.purpose instants ∧
        VerifierAccepts options context grant := by
  rw [← grantIsActive_iff, grantIsActive, decide_eq_true_iff]
  unfold grantRejection VerifierAccepts
  constructor
  · intro h
    split_ifs at h with hissuer hsubject hnamespace
    rw [Bool.not_eq_true', Bool.not_eq_false, addressesEqual_iff] at hissuer hsubject
    cases hactive : grantInactiveReason grant context.purpose instants with
    | some reason =>
        rw [hactive] at h
        cases reason <;> cases h
    | none =>
        rw [hactive] at h
        refine ⟨hissuer, hsubject, not_not.mp hnamespace, rfl, fun verifier hverifier => ?_⟩
        rw [hverifier] at h
        replace h : (match verifier.verify grant context with
          | .fulfilled true => (none : Option GrantRejectionReason)
          | .fulfilled false => some .verifier
          | .rejected => some .verifier) = none := h
        cases hanswer : verifier.verify grant context with
        | rejected => rw [hanswer] at h; cases h
        | fulfilled accepted =>
            cases accepted with
            | true => rfl
            | false => rw [hanswer] at h; cases h
  · rintro ⟨hissuer, hsubject, hnamespace, hactive, hverifier⟩
    rw [if_neg (by simp [hissuer]), if_neg (by simp [hsubject]), if_neg (by simp [hnamespace]),
      hactive]
    cases hport : options.grantVerifier with
    | none => rfl
    | some verifier =>
        show (match verifier.verify grant context with
          | .fulfilled true => (none : Option GrantRejectionReason)
          | .fulfilled false => some .verifier
          | .rejected => some .verifier) = none
        rw [hverifier verifier hport]

section Grant

variable {options : CapabilityAuthorizerOptions Id} {context : AccessContext}
  {instants : GrantInstants} {covers : Capability → Bool} {grant : CapabilityGrant}

theorem Usable.not_unreadable (h : Usable options context instants covers grant) :
    ¬ Unreadable options context instants covers grant := by
  intro h'
  have hbudget := h.budget.symm.trans h'.budget
  cases hbudget

omit [HostPlatform] in
/-- A budget is unreadable only for a bounded grant whose store is absent or rejects. -/
theorem budgetLeft_unavailable_iff :
    budgetLeft options context grant = BudgetStatus.unavailable ↔
      grant.constraints.maxUses.isSome ∧ ∀ store, options.usageStore = some store →
        store.getUsage context.namespaceId grant.id = Settled.rejected := by
  unfold budgetLeft
  cases grant.constraints.maxUses with
  | none =>
      refine iff_of_false (fun h => ?_) (by simp)
      cases h
  | some maximumUses =>
      cases options.usageStore with
      | none => exact iff_of_true rfl ⟨rfl, fun store h => by cases h⟩
      | some store =>
          show (match store.getUsage context.namespaceId grant.id with
            | .fulfilled used => if used < maximumUses then _ else _
            | .rejected => BudgetStatus.unavailable) = BudgetStatus.unavailable ↔ _
          cases hanswer : store.getUsage context.namespaceId grant.id with
          | fulfilled used =>
              refine iff_of_false (fun h => ?_) (fun h => ?_)
              · dsimp only at h
                split at h <;> cases h
              · have hrejected := h.2 store rfl
                rw [hanswer] at hrejected
                cases hrejected
          | rejected =>
              refine iff_of_true rfl ⟨rfl, fun store' h => ?_⟩
              cases h
              exact hanswer

omit [HostPlatform] in
/-- A store that answers leaves no budget unreadable. -/
theorem StoreAnswers.budget_readable (h : StoreAnswers options) :
    budgetLeft options context grant ≠ BudgetStatus.unavailable := by
  intro hbudget
  obtain ⟨store, hstore, hanswers⟩ := h
  obtain ⟨used, hused⟩ := hanswers context.namespaceId grant.id
  have hrejected := (budgetLeft_unavailable_iff.mp hbudget).2 store hstore
  rw [hused] at hrejected
  cases hrejected

end Grant

/-! ## The walk -/

section Walk

variable {options : CapabilityAuthorizerOptions Id} {authority : ResolvedAuthority}
  {request : CapabilityRequirement} {matcher : Matcher} {instants : GrantInstants}
  {walk : GrantWalk} {grant : CapabilityGrant}

/-- What the walk makes of a budget it only reads. -/
def considerBudget (options : CapabilityAuthorizerOptions Id) (walk : GrantWalk)
    (grant : CapabilityGrant) : BudgetStatus → Consideration
  | .available => .decided (allow grant.id) walk none
  | .spent => .next { walk.reject grant .exhausted with foundExhaustedGrant := true }
  | .unavailable =>
    .decided (deny .usageStoreUnavailable none) walk
      (if options.usageStore.isNone then some .usageStore else none)

omit [HostPlatform] in
/-- Without consumption, spending a grant only reads its budget. -/
theorem spendGrant_eq :
    spendGrant options authority.context grant false walk =
      considerBudget options walk grant (budgetLeft options authority.context grant) := by
  unfold spendGrant budgetLeft
  cases grant.constraints.maxUses with
  | none => rfl
  | some maximumUses =>
      cases hstore : options.usageStore with
      | none => simp only [considerBudget, hstore, Option.isNone_none, if_true]; rfl
      | some store =>
          dsimp only [takeUse, Bind.bind, Pure.pure]
          cases store.getUsage authority.context.namespaceId grant.id with
          | rejected => simp only [considerBudget, hstore, Option.isNone_some]; rfl
          | fulfilled used =>
              by_cases hlt : used < maximumUses <;>
                simp only [hlt, considerBudget, Bool.false_eq_true, if_true, if_false, decide_true,
                  decide_false]

/-- The loop body, with the ports at fixed answers and no ceiling. -/
theorem considerGrant_eq (hceiling : options.hostCeiling = none) :
    considerGrant options authority request matcher false instants walk grant =
      (match grantRejection options authority.context grant instants with
        | some reason => Consideration.next (walk.reject grant reason)
        | none =>
          if !grant.capabilities.any fun c => matcher c request authority.context then
            Consideration.next (walk.reject grant .capability)
          else
            match delegationFailureOf
                (validateDelegation options authority.context grant instants) with
            | some failure =>
              Consideration.next
                { walk.reject grant .delegation with
                  delegationFailure :=
                    some (worstDelegationFailure walk.delegationFailure failure) }
            | none => spendGrant options authority.context grant false walk) := by
  unfold considerGrant applyCeiling
  rw [hceiling]
  rfl

variable (hceiling : options.hostCeiling = none)
include hceiling

theorem considerGrant_usable
    (h : Usable options authority.context instants (matcher · request authority.context) grant) :
    considerGrant options authority request matcher false instants walk grant =
      Consideration.decided (allow grant.id) walk none := by
  have hcovered : (grant.capabilities.any fun c => matcher c request authority.context) = true :=
    List.any_eq_true.mpr h.carries.covered
  rw [considerGrant_eq hceiling, h.carries.eligible.unrejected, hcovered,
    h.carries.eligible.chained, spendGrant_eq, h.budget]
  rfl

theorem considerGrant_unreadable
    (h : Unreadable options authority.context instants (matcher · request authority.context)
      grant) :
    ∃ missing, considerGrant options authority request matcher false instants walk grant =
      Consideration.decided (deny .usageStoreUnavailable none) walk missing := by
  have hcovered : (grant.capabilities.any fun c => matcher c request authority.context) = true :=
    List.any_eq_true.mpr h.carries.covered
  rw [considerGrant_eq hceiling, h.carries.eligible.unrejected, hcovered,
    h.carries.eligible.chained, spendGrant_eq, h.budget]
  exact ⟨_, rfl⟩

/-- Any other grant is passed over, and none of the passed-over grants is a policy denial. -/
theorem considerGrant_passed
    (husable : ¬ Usable options authority.context instants
      (matcher · request authority.context) grant)
    (hreadable : ¬ Unreadable options authority.context instants
      (matcher · request authority.context) grant) :
    ∃ walk', considerGrant options authority request matcher false instants walk grant =
      Consideration.next walk' ∧ walk'.policyDenial = walk.policyDenial := by
  rw [considerGrant_eq hceiling]
  cases hrejection : grantRejection options authority.context grant instants with
  | some reason => exact ⟨_, rfl, rfl⟩
  | none =>
      dsimp only
      split
      · exact ⟨_, rfl, rfl⟩
      · next hcovered =>
          cases hchain : delegationFailureOf
              (validateDelegation options authority.context grant instants) with
          | some failure => exact ⟨_, rfl, rfl⟩
          | none =>
              have hcarries : Carries options authority.context instants
                  (matcher · request authority.context) grant :=
                ⟨⟨hrejection, hchain⟩, List.any_eq_true.mp (by simpa using hcovered)⟩
              rw [spendGrant_eq]
              cases hbudget : budgetLeft options authority.context grant with
              | available => exact absurd ⟨hcarries, hbudget⟩ husable
              | unavailable => exact absurd ⟨hcarries, hbudget⟩ hreadable
              | spent => exact ⟨_, rfl, rfl⟩

/-- **The walk is a scan.** It ends either with a decision, an allow exactly when the scan allows,
or past every grant with no policy denial on record. -/
theorem walkGrants_scan {grants : List CapabilityGrant} (hdenial : walk.policyDenial = none) :
    (∃ decision walk' missing,
        walkGrants options authority request matcher false instants walk grants =
          Consideration.decided decision walk' missing ∧
        (decision.allowed = true ↔ GrantsAllow options authority.context instants
          (matcher · request authority.context) grants)) ∨
      (∃ walk', walkGrants options authority request matcher false instants walk grants =
          Consideration.next walk' ∧ walk'.policyDenial = none ∧
        ¬ GrantsAllow options authority.context instants
          (matcher · request authority.context) grants) := by
  induction grants generalizing walk with
  | nil => exact .inr ⟨walk, rfl, hdenial, id⟩
  | cons grant rest ih =>
      have hstep : walkGrants options authority request matcher false instants walk
          (grant :: rest) =
          (match considerGrant options authority request matcher false instants walk grant with
            | .decided decision walk missing => Consideration.decided decision walk missing
            | .next walk =>
              walkGrants options authority request matcher false instants walk rest) := rfl
      rw [hstep]
      by_cases husable : Usable options authority.context instants
          (matcher · request authority.context) grant
      · rw [considerGrant_usable hceiling husable]
        exact .inl ⟨_, _, _, rfl, iff_of_true rfl (scanAllows_cons_usable husable)⟩
      · by_cases hunreadable : Unreadable options authority.context instants
            (matcher · request authority.context) grant
        · obtain ⟨missing, heq⟩ := @considerGrant_unreadable _ options authority request matcher
            instants walk grant hceiling hunreadable
          rw [heq]
          exact .inl ⟨_, _, _, rfl, iff_of_false Bool.false_ne_true
            (not_scanAllows_cons_blocking husable hunreadable)⟩
        · obtain ⟨walk', heq, hsame⟩ :=
            @considerGrant_passed _ options authority request matcher instants walk
              grant hceiling husable hunreadable
          rw [heq]
          have hpassed : GrantsAllow options authority.context instants
              (matcher · request authority.context) (grant :: rest) ↔ GrantsAllow options
              authority.context instants (matcher · request authority.context) rest :=
            scanAllows_cons_passed husable hunreadable
          rw [hpassed]
          exact ih (hsame.trans hdenial)

end Walk

/-! ## The two entry points -/

section Entry

variable {options : CapabilityAuthorizerOptions Id} {authority : ResolvedAuthority}
  {request : CapabilityRequirement} {now : Option JsString}

theorem denyWalk_denies {walk : GrantWalk} {describeMissing : Bool}
    (hdenial : walk.policyDenial = none) :
    (denyWalk options authority request describeMissing walk).decision.allowed = false := by
  unfold denyWalk
  dsimp only
  cases walk.delegationFailure with
  | some failure => rfl
  | none =>
      rw [hdenial]
      dsimp only
      split_ifs <;> rfl

/-- A decision without consumption allows exactly in a valid context, on a well-formed request,
when the scan of the grants does. -/
theorem decideOnGrants_iff (hceiling : options.hostCeiling = none) {matcher : Matcher}
    {describeMissing : Bool} :
    (decideOnGrants options authority request matcher false now
        describeMissing).run.decision.allowed = true ↔
      ∃ instants, decisionInstants authority.context now = some instants ∧
        requestIsWellFormed request authority.context = true ∧
        GrantsAllow options authority.context instants (matcher · request authority.context)
          authority.grants := by
  unfold decideOnGrants
  dsimp only
  cases decisionInstants authority.context now with
  | none => exact iff_of_false Bool.false_ne_true (by simp)
  | some instants =>
      dsimp only
      cases hformed : requestIsWellFormed request authority.context with
      | false => exact iff_of_false Bool.false_ne_true (by simp)
      | true =>
          show (match walkGrants options authority request matcher false instants .start
              authority.grants with
            | .decided decision walk missing => _
            | .next walk => denyWalk options authority request describeMissing walk).decision.allowed
              = true ↔ _
          have hscan := @walkGrants_scan _ options authority request matcher instants .start hceiling
            authority.grants rfl
          rcases hscan with ⟨decision, walk', missing, heq, hallowed⟩ | ⟨walk', heq, hdenial, hrefused⟩
          · rw [heq]
            show decision.allowed = true ↔ _
            simpa using hallowed
          · rw [heq]
            dsimp only
            rw [denyWalk_denies hdenial]
            simpa using hrefused

/-- **What `authorize` allows.** -/
theorem authorizes_iff (hceiling : options.hostCeiling = none) :
    Authorizes options authority request now ↔
      ∃ instants, decisionInstants authority.context now = some instants ∧
        requestIsWellFormed request authority.context = true ∧
        GrantsAllow options authority.context instants
          (capabilityMatches · request authority.context) authority.grants :=
  decideOnGrants_iff hceiling

/-- **What `canDiscover` allows.** -/
theorem discovers_iff (hceiling : options.hostCeiling = none) :
    Discovers options authority request now ↔
      ∃ instants, decisionInstants authority.context now = some instants ∧
        requestIsWellFormed request authority.context = true ∧
        GrantsAllow options authority.context instants
          (capabilityIntersectsCeiling · request authority.context) authority.grants :=
  decideOnGrants_iff hceiling

/-- Where the store answers, a request is authorized when some grant is usable for it. -/
theorem authorizes_iff_usable (hceiling : options.hostCeiling = none)
    (hstore : StoreAnswers options) :
    Authorizes options authority request now ↔
      ∃ instants, decisionInstants authority.context now = some instants ∧
        requestIsWellFormed request authority.context = true ∧
        ∃ grant ∈ authority.grants, Usable options authority.context instants
          (capabilityMatches · request authority.context) grant := by
  rw [authorizes_iff hceiling]
  refine exists_congr fun instants => and_congr_right fun _ => and_congr_right fun _ => ?_
  exact scanAllows_iff_exists fun grant _ h => hstore.budget_readable h.budget

/-- Where the store answers, a tool is discoverable when some grant meets its ceiling. -/
theorem discovers_iff_usable (hceiling : options.hostCeiling = none)
    (hstore : StoreAnswers options) :
    Discovers options authority request now ↔
      ∃ instants, decisionInstants authority.context now = some instants ∧
        requestIsWellFormed request authority.context = true ∧
        ∃ grant ∈ authority.grants, Usable options authority.context instants
          (capabilityIntersectsCeiling · request authority.context) grant := by
  rw [discovers_iff hceiling]
  refine exists_congr fun instants => and_congr_right fun _ => and_congr_right fun _ => ?_
  exact scanAllows_iff_exists fun grant _ h => hstore.budget_readable h.budget

end Entry

end SharedOS.Core
