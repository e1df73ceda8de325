/-
SharedOS.Kernel.UsageLedger — bounded grants are spent exactly, whatever runs beside what.

Decisions, discoveries and reach reads run interleaved over one in-memory usage store. Each is the
authorizer's own program, and everything but the store answers as it likes. A decision spends at
most one use, as the last thing it does, and then it is an allow that names the grant (`Settles`).
The store's counts are therefore a ledger of the allows.
-/
import SharedOS.Foundation.Interleaving
import SharedOS.Kernel.AuditMediation

namespace SharedOS.Kernel

open SharedOS.Foundation SharedOS.Contracts SharedOS.Core

/-! ## The store -/

/-- `InMemoryGrantUsageStore`: uses by namespace and grant id, none where nothing was recorded. -/
structure InMemoryGrantUsageStore where
  usageByNamespace : JsString → JsString → ℕ

namespace InMemoryGrantUsageStore

/-- A store nothing was taken from. -/
def empty : InMemoryGrantUsageStore where
  usageByNamespace _ _ := 0

/-- `getUsage`. -/
def getUsage (store : InMemoryGrantUsageStore) (namespaceId grantId : JsString) : ℕ :=
  store.usageByNamespace namespaceId grantId

/-- `tryConsume`. -/
def tryConsume (store : InMemoryGrantUsageStore) (namespaceId grantId : JsString)
    (maximumUses : ℤ) : InMemoryGrantUsageStore × Bool :=
  let current := store.getUsage namespaceId grantId
  if (current : ℤ) ≥ maximumUses then (store, false)
  else
    ({ usageByNamespace := fun n g =>
        if n = namespaceId ∧ g = grantId then current + 1 else store.usageByNamespace n g }, true)

/-- A use is taken below the bound, and counts for its grant alone. -/
theorem tryConsume_taken {store : InMemoryGrantUsageStore} {namespaceId grantId : JsString}
    {maximumUses : ℤ} (h : (store.getUsage namespaceId grantId : ℤ) < maximumUses) :
    (store.tryConsume namespaceId grantId maximumUses).2 = true ∧
      ∀ n g, (store.tryConsume namespaceId grantId maximumUses).1.getUsage n g =
        store.getUsage n g + if n = namespaceId ∧ g = grantId then 1 else 0 := by
  unfold tryConsume
  dsimp only
  rw [if_neg (by omega)]
  refine ⟨rfl, fun n g => ?_⟩
  unfold getUsage
  dsimp only
  split
  · next hkey => rw [hkey.1, hkey.2]
  · rfl

theorem tryConsume_refused {store : InMemoryGrantUsageStore} {namespaceId grantId : JsString}
    {maximumUses : ℤ} (h : maximumUses ≤ store.getUsage namespaceId grantId) :
    store.tryConsume namespaceId grantId maximumUses = (store, false) := if_pos h

/-- The calls the store answers. Each of its methods runs to its end when called. -/
def serve : Server InMemoryGrantUsageStore KernelOp.Answer
  | store, .getUsage namespaceId grantId =>
    some (store, .fulfilled (store.getUsage namespaceId grantId : ℤ))
  | store, .tryConsume namespaceId grantId maximumUses =>
    let consumed := store.tryConsume namespaceId grantId maximumUses
    some (consumed.1, .fulfilled consumed.2)
  | _, _ => none

end InMemoryGrantUsageStore

/-! ## What runs over it -/

/-- One call of the authorizer. -/
inductive UsageCall where
  | authorize (authority : ResolvedAuthority) (request : CapabilityRequirement) (consume : Bool)
      (now : Option JsString)
  | canDiscover (authority : ResolvedAuthority) (ceiling : CapabilityRequirement)
      (now : Option JsString)
  | reach (authority : ResolvedAuthority) (now : Option JsString)

/-- The authority a call is decided under. -/
def UsageCall.authority : UsageCall → ResolvedAuthority
  | .authorize authority .. => authority
  | .canDiscover authority .. => authority
  | .reach authority _ => authority

/-- What a call answers. -/
inductive UsageAnswer where
  | decided (decision : AuthorizationDecision)
  | reached (result : ReachResult)

/-- The program of a call. -/
def UsageCall.body [HostPlatform] (kernel : SharedOSKernel) : UsageCall → KernelM UsageAnswer
  | .authorize authority request consume now => do
    let explained ← Core.authorize kernel.authorizer authority request consume now
    pure (.decided explained.decision)
  | .canDiscover authority ceiling now => do
    let explained ← Core.canDiscover kernel.authorizer authority ceiling now
    pure (.decided explained.decision)
  | .reach authority now => do
    let result ← Core.reach kernel.authorizer authority now
    pure (.reached result)

/-- Calls that are out at once. -/
abbrev UsagePool := Pool InMemoryGrantUsageStore UsageCall KernelOp.Answer KernelError UsageAnswer

/-- One of them. -/
abbrev UsageThread := Thread UsageCall KernelOp.Answer KernelError UsageAnswer

/-- One step of the calls over the store. -/
def usageStep [HostPlatform] (kernel : SharedOSKernel) :
    UsagePool → PoolLabel UsageCall KernelOp.Answer → Option UsagePool :=
  poolStep InMemoryGrantUsageStore.serve (UsageCall.body kernel)

/-! ## What a call spends -/

/-- A use of a grant, where the event is the taking of one. -/
def consumedBy : KernelEvent → Option (JsString × JsString)
  | ⟨.tryConsume namespaceId grantId _, .fulfilled true⟩ => some (namespaceId, grantId)
  | _ => none

/-- The uses taken in a trace. -/
def spent (t : KernelTrace) : List (JsString × JsString) := t.filterMap consumedBy

/-- Any operation but the spending one. -/
def Sparing : KernelOp → Prop
  | .tryConsume .. => False
  | _ => True

/-- A use is asked of the store only for a bounded grant of the list, at its own bound, and only
while none was taken. -/
def AsksItsUse (authority : ResolvedAuthority) (t : KernelTrace) (o : KernelOp) : Prop :=
  spent t = [] ∧ ∀ namespaceId grantId maximumUses,
    o = .tryConsume namespaceId grantId maximumUses → ∃ grant ∈ authority.grants,
      grant.namespaceId = namespaceId ∧ grant.id = grantId ∧
        grant.constraints.maxUses = some maximumUses

/-- What a decision has spent when it is taken: a denial nothing, an allow the one use of the
grant it names, if uses are consumed and the grant is bounded. -/
inductive Settles (authority : ResolvedAuthority) (covers : Capability → Bool) (consume : Bool) :
    List (JsString × JsString) → AuthorizationDecision → Prop
  | denied {decision : AuthorizationDecision} :
      decision.allowed = false → Settles authority covers consume [] decision
  | allowed {grant : CapabilityGrant} :
      grant ∈ authority.grants → grant.namespaceId = authority.context.namespaceId →
      (∃ c ∈ grant.capabilities, covers c = true) →
      Settles authority covers consume
        (if consume = true ∧ grant.constraints.maxUses.isSome then
          [(grant.namespaceId, grant.id)] else [])
        (allow grant.id)

theorem consumedBy_sparing {e : KernelEvent} (h : Sparing e.1) : consumedBy e = none := by
  obtain ⟨o, x⟩ := e
  cases o <;> first | rfl | exact h.elim

theorem spent_snoc {t : KernelTrace} {e : KernelEvent} :
    spent (t ++ [e]) = spent t ++ (consumedBy e).toList := by
  unfold spent
  rw [List.filterMap_append]
  cases h : consumedBy e <;> simp [h]

theorem sparing_of_authorizerOp {o : KernelOp} (h : AuthorizerOp false o) : Sparing o := by
  cases o <;> trivial

section Decide

variable [HostPlatform] {kernel : SharedOSKernel} {authority : ResolvedAuthority}
  {request : CapabilityRequirement} {matcher : Matcher} {consume : Bool}
  {instants : GrantInstants} {h : KernelTrace}

omit [HostPlatform] in
/-- A sparing head leaves nothing spent. -/
theorem wp_sparing_bind {α β : Type} {p : KernelM α} {f : α → KernelM β}
    {Q : KernelTrace → Except KernelError β → Prop} (hp : p.Uses Sparing) (hspent : spent h = [])
    (hthrow : ∀ h e, spent h = [] → Q h (.error e))
    (hf : ∀ h t a, spent h = [] → Program.Finishes p t (.ok a) →
      Program.wp (AsksItsUse authority) (f a) Q h) :
    Program.wp (AsksItsUse authority) (p >>= f) Q h := by
  refine Program.wp_bind_uses (I := fun h => spent h = []) hp hspent (fun h e hnone he => ?_)
    (fun h o hnone ho => ⟨hnone, ?_⟩) hthrow hf
  · rw [spent_snoc, hnone, consumedBy_sparing he]
    rfl
  · rintro namespaceId grantId maximumUses rfl
    exact ho.elim

omit [HostPlatform] in
theorem portsUse_sparing (kernel : SharedOSKernel) : PortsUse Sparing kernel.authorizer false :=
  portsUse_authorizer kernel fun _ => sparing_of_authorizerOp

/-- What the walk holds as a policy denial is a denial. -/
def DenialKept (walk : GrantWalk) : Prop :=
  ∀ denial, walk.policyDenial = some denial → denial.allowed = false

/-- What a consideration has spent: nothing if the walk goes on, the decision's if it ends. -/
def Considers (authority : ResolvedAuthority) (covers : Capability → Bool) (consume : Bool)
    (t : KernelTrace) : Except KernelError Consideration → Prop
  | .ok (.decided decision _ _) => Settles authority covers consume (spent t) decision
  | .ok (.next walk) => spent t = [] ∧ DenialKept walk
  | .error _ => spent t = []

/-- What a decision has spent. -/
def Decides (authority : ResolvedAuthority) (covers : Capability → Bool) (consume : Bool)
    (t : KernelTrace) : Except KernelError Explained → Prop
  | .ok explained => Settles authority covers consume (spent t) explained.decision
  | .error _ => spent t = []

/-- What asking for a use of the grant has spent, once it is answered. -/
def takenFrom (authority : ResolvedAuthority) (grant : CapabilityGrant) (consume : Bool) :
    Settled Bool → List (JsString × JsString)
  | .fulfilled true => if consume then [(authority.context.namespaceId, grant.id)] else []
  | _ => []

omit [HostPlatform] in
theorem wp_takeUse {store : GrantUsageStore KernelM} {grant : CapabilityGrant} {maximumUses : ℤ}
    {Q : KernelTrace → Except KernelError (Settled Bool) → Prop}
    (hstore : kernel.authorizer.usageStore = some store) (hspent : spent h = [])
    (hgrant : grant ∈ authority.grants)
    (hnamespace : grant.namespaceId = authority.context.namespaceId)
    (hmax : grant.constraints.maxUses = some maximumUses)
    (hQ : ∀ h taken, spent h = takenFrom authority grant consume taken → Q h (.ok taken)) :
    Program.wp (AsksItsUse authority)
      (takeUse store authority.context grant maximumUses consume) Q h := by
  obtain rfl := installed_eq_some hstore
  cases consume with
  | false =>
      refine ⟨⟨hspent, by simp⟩, fun answer => ?_⟩
      have hread : spent (h ++ [⟨.getUsage authority.context.namespaceId grant.id, answer⟩]) =
          [] := by rw [spent_snoc, hspent]; rfl
      cases answer with
      | rejected => exact hQ _ _ hread
      | fulfilled used =>
          refine hQ _ _ (hread.trans ?_)
          cases decide (used < maximumUses) <;> rfl
  | true =>
      refine ⟨⟨hspent, ?_⟩, fun answer => hQ _ _ ?_⟩
      · intro namespaceId grantId bound hop
        cases hop
        exact ⟨grant, hgrant, hnamespace, rfl, hmax⟩
      · rw [spent_snoc, hspent]
        cases answer with
        | rejected => rfl
        | fulfilled taken => cases taken <;> rfl

omit [HostPlatform] in
theorem wp_spendGrant {covers : Capability → Bool} {grant : CapabilityGrant} {walk : GrantWalk}
    (hspent : spent h = []) (hkept : DenialKept walk) (hgrant : grant ∈ authority.grants)
    (hnamespace : grant.namespaceId = authority.context.namespaceId)
    (hcovered : ∃ c ∈ grant.capabilities, covers c = true) :
    Program.wp (AsksItsUse authority)
      (spendGrant kernel.authorizer authority.context grant consume walk)
      (Considers authority covers consume) h := by
  have hallowed := @Settles.allowed authority covers consume grant hgrant hnamespace hcovered
  unfold spendGrant
  cases hmax : grant.constraints.maxUses with
  | none =>
      rw [hmax] at hallowed
      show Settles _ _ _ (spent h) _
      rw [hspent]
      simpa using hallowed
  | some maximumUses =>
      cases hstore : kernel.authorizer.usageStore with
      | none =>
          show Settles _ _ _ (spent h) _
          rw [hspent]
          exact .denied rfl
      | some store =>
          refine Program.wp_bind.mpr (wp_takeUse hstore hspent hgrant hnamespace hmax
            fun h taken hspent => ?_)
          cases taken with
          | rejected =>
              show Settles _ _ _ (spent h) _
              rw [hspent]
              exact .denied rfl
          | fulfilled left =>
              cases left with
              | true =>
                  show Settles _ _ _ (spent h) _
                  rw [hspent]
                  rw [hmax, hnamespace] at hallowed
                  simpa [takenFrom] using hallowed
              | false => exact ⟨hspent, hkept⟩

/-- A grant that is not rejected is one of the context's namespace. -/
theorem grantRejection_namespace {options : CapabilityAuthorizerOptions KernelM}
    {context : AccessContext} {grant : CapabilityGrant} {t : KernelTrace}
    (hrun : Program.Finishes (grantRejection options context grant instants) t (.ok none)) :
    grant.namespaceId = context.namespaceId := by
  by_contra hother
  unfold grantRejection at hrun
  rw [if_pos hother] at hrun
  split_ifs at hrun <;> simp at hrun

omit [HostPlatform] in
/-- A ceiling repeats the allow it was shown or denies. -/
theorem applyCeiling_allow_or_deny {options : CapabilityAuthorizerOptions KernelM}
    {grantId : JsString} {context : AccessContext} {hostPolicy : Option PolicyResolution}
    {t : KernelTrace} {narrowed : AuthorizationDecision}
    (hrun : Program.Finishes (applyCeiling options grantId request context hostPolicy) t
      (.ok narrowed)) :
    narrowed = allow grantId ∨ narrowed.allowed = false := by
  unfold applyCeiling at hrun
  split at hrun
  · obtain ⟨-, heq⟩ := Program.finishes_done.mp hrun
    exact .inl (Except.ok.inj heq)
  split at hrun
  · obtain ⟨-, heq⟩ := Program.finishes_done.mp hrun
    rw [Except.ok.inj heq]
    exact .inr rfl
  rcases Program.finishes_bind.mp hrun with ⟨e, herr, -⟩ | ⟨answer, t₁, t₂, -, -, hrest⟩
  · cases herr
  split at hrest
  · dsimp only at hrest
    split at hrest
    · obtain ⟨-, heq⟩ := Program.finishes_done.mp hrest
      rw [Except.ok.inj heq]
      exact .inr rfl
    · rcases Program.finishes_bind.mp hrest with ⟨e, herr, -⟩ | ⟨_, _, _, -, -, hdenied⟩
      · cases herr
      · obtain ⟨-, heq⟩ := Program.finishes_done.mp hdenied
        rw [Except.ok.inj heq]
        exact .inr rfl
  · obtain ⟨-, heq⟩ := Program.finishes_done.mp hrest
    rw [Except.ok.inj heq]
    exact .inr rfl
  · split at hrest
    · obtain ⟨-, heq⟩ := Program.finishes_done.mp hrest
      exact .inl (Except.ok.inj heq)
    · obtain ⟨-, heq⟩ := Program.finishes_done.mp hrest
      rw [Except.ok.inj heq]
      exact .inr rfl
  · obtain ⟨-, heq⟩ := Program.finishes_done.mp hrest
    rw [Except.ok.inj heq]
    exact .inr rfl

theorem wp_considerGrant {walk : GrantWalk} {grant : CapabilityGrant} (hspent : spent h = [])
    (hkept : DenialKept walk) (hgrant : grant ∈ authority.grants) :
    Program.wp (AsksItsUse authority)
      (considerGrant kernel.authorizer authority request matcher consume instants walk grant)
      (Considers authority (matcher · request authority.context) consume) h := by
  have hports := portsUse_sparing kernel
  unfold considerGrant
  refine wp_sparing_bind (uses_grantRejection hports _ _ _) hspent (fun _ _ h => h)
    fun h t rejection hspent hrun => ?_
  cases rejection with
  | some reason => exact ⟨hspent, hkept⟩
  | none =>
      have hnamespace := grantRejection_namespace hrun
      dsimp only
      split
      · exact ⟨hspent, hkept⟩
      · next hcovered =>
          refine wp_sparing_bind (uses_validateDelegation hports _ _ _) hspent (fun _ _ h => h)
            fun h t validation hspent _ => ?_
          cases delegationFailureOf validation with
          | some failure => exact ⟨hspent, hkept⟩
          | none =>
              refine wp_sparing_bind (uses_applyCeiling hports _ _ _ _) hspent
                (fun _ _ h => h) fun h t narrowed hspent hrun => ?_
              split
              · next hunavailable =>
                  show Settles _ _ _ (spent h) _
                  rw [hspent]
                  rcases applyCeiling_allow_or_deny hrun with rfl | hdenied
                  · cases hunavailable
                  · exact .denied hdenied
              split
              · next hrefused =>
                  refine ⟨hspent, fun denial hdenial => ?_⟩
                  cases hbefore : walk.policyDenial with
                  | none =>
                      rw [hbefore] at hdenial
                      cases hdenial
                      simpa using hrefused
                  | some earlier =>
                      rw [hbefore] at hdenial
                      cases hdenial
                      exact hkept _ hbefore
              · exact wp_spendGrant hspent hkept hgrant hnamespace
                  (List.any_eq_true.mp (by simpa using hcovered))

theorem wp_walkGrants {walk : GrantWalk} {grants : List CapabilityGrant} (hspent : spent h = [])
    (hkept : DenialKept walk) (hgrants : ∀ grant ∈ grants, grant ∈ authority.grants) :
    Program.wp (AsksItsUse authority)
      (walkGrants kernel.authorizer authority request matcher consume instants walk grants)
      (Considers authority (matcher · request authority.context) consume) h := by
  induction grants generalizing walk h with
  | nil => exact ⟨hspent, hkept⟩
  | cons grant rest ih =>
      unfold walkGrants
      refine Program.wp_bind.mpr (Program.wp_mono (wp_considerGrant hspent hkept
        (hgrants grant List.mem_cons_self)) fun h r hr => ?_)
      cases r with
      | error e => exact hr
      | ok consideration =>
          cases consideration with
          | decided decision walk missing => exact hr
          | next walk => exact ih hr.1 hr.2 fun g hg => hgrants g (List.mem_cons_of_mem _ hg)

theorem denyWalk_denied {options : CapabilityAuthorizerOptions KernelM} {describeMissing : Bool}
    {walk : GrantWalk} (hkept : DenialKept walk) :
    (denyWalk options authority request describeMissing walk).decision.allowed = false := by
  unfold denyWalk
  cases walk.delegationFailure with
  | some failure => rfl
  | none =>
      cases hdenial : walk.policyDenial with
      | some denial => exact hkept denial hdenial
      | none => cases walk.foundExhaustedGrant <;> cases describeMissing <;> rfl

/-- **What a decision spends.** -/
theorem wp_decideOnGrants {now : Option JsString} {describeMissing : Bool}
    (hspent : spent h = []) :
    Program.wp (AsksItsUse authority)
      (decideOnGrants kernel.authorizer authority request matcher consume now describeMissing)
      (Decides authority (matcher · request authority.context) consume) h := by
  have hdenied : ∀ {decision : AuthorizationDecision} {n walk missing}, decision.allowed = false →
      Decides authority (matcher · request authority.context) consume h
        (.ok (explained decision n walk missing)) := by
    intro decision n walk missing hdecision
    show Settles _ _ _ (spent h) _
    rw [hspent]
    exact .denied hdecision
  unfold decideOnGrants
  dsimp only
  split
  · exact hdenied rfl
  split
  · exact hdenied rfl
  · refine Program.wp_bind.mpr (Program.wp_mono (wp_walkGrants hspent (fun _ h => nomatch h)
      fun _ hg => hg) fun h r hr => ?_)
    cases r with
    | error e => exact hr
    | ok consideration =>
        cases consideration with
        | decided decision walk missing => exact hr
        | next walk =>
            show Settles _ _ _ (spent h) _
            rw [hr.1]
            exact .denied (denyWalk_denied hr.2)

/-- What a call has spent when it ends. -/
def UsageCall.Ends (t : KernelTrace) : UsageCall → Except KernelError UsageAnswer → Prop
  | .authorize authority request consume _, .ok (.decided decision) =>
    Settles authority (capabilityMatches · request authority.context) consume (spent t) decision
  | .canDiscover .., .ok (.decided _) => spent t = []
  | .reach .., .ok (.reached _) => spent t = []
  | _, .ok _ => False
  | _, .error _ => spent t = []

/-- **One spec for the three calls.** -/
theorem wp_body (call : UsageCall) :
    Program.wp (AsksItsUse call.authority) (call.body kernel) (fun t r => call.Ends t r) [] := by
  have hports := portsUse_sparing kernel
  cases call with
  | authorize authority request consume now =>
      refine Program.wp_bind.mpr (Program.wp_mono (wp_decideOnGrants rfl) fun t r hr => ?_)
      cases r with
      | error e => exact hr
      | ok explained => exact hr
  | canDiscover authority ceiling now =>
      exact wp_sparing_bind (uses_decideOnGrants hports _ _ _ _ _) rfl (fun _ _ h => h)
        fun _ _ _ h _ => h
  | reach authority now =>
      exact wp_sparing_bind (uses_reach hports _ _) rfl (fun _ _ h => h) fun _ _ _ h _ => h

end Decide

/-! ## The ledger of the store -/

/-- The thread is a consuming decision that allowed and named this grant. -/
def allowsConsuming (namespaceId grantId : JsString) (t : UsageThread) : Bool :=
  match t.task, t.rest with
  | .authorize authority _ consume _, .done (.decided decision) =>
    consume && decision.allowed && decide (decision.matchedGrantId = some grantId) &&
      decide (authority.context.namespaceId = namespaceId)
  | _, _ => false

/-- The thread ended in an allow. -/
def allowed (t : UsageThread) : Bool :=
  match t.rest with
  | .done (.decided decision) => decision.allowed
  | _ => false

/-- A consuming request of the namespace that no listed grant but this one covers. -/
def onlySatisfiedBy [HostPlatform] (namespaceId grantId : JsString) : UsageCall → Bool
  | .authorize authority request consume _ =>
    consume && decide (authority.context.namespaceId = namespaceId) &&
      authority.grants.all fun grant =>
        !(grant.capabilities.any (capabilityMatches · request authority.context)) ||
          decide (grant.id = grantId)
  | _ => false

/-- What one event takes of a grant. -/
def usePrice (namespaceId grantId : JsString) (e : KernelEvent) : ℕ :=
  if consumedBy e = some (namespaceId, grantId) then 1 else 0

section Ledger

variable [HostPlatform] {kernel : SharedOSKernel} {labels : List (PoolLabel UsageCall KernelOp.Answer)}
  {pool pool' : UsagePool} {registry : JsString → JsString → CapabilityGrant}
  {namespaceId grantId : JsString} {maximumUses : ℤ}

omit [HostPlatform] in
theorem charged_eq_count (t : UsageThread) :
    t.charged (usePrice namespaceId grantId) = (spent t.asked).count (namespaceId, grantId) := by
  unfold Thread.charged spent
  induction t.asked with
  | nil => rfl
  | cons e rest ih =>
      rw [List.map_cons, List.sum_cons, ih, List.filterMap_cons]
      unfold usePrice
      cases consumedBy e with
      | none => simp
      | some key =>
          rw [List.count_cons]
          by_cases hkey : key = (namespaceId, grantId) <;> simp [hkey, Nat.add_comm]

omit [HostPlatform] in
theorem served_usage {store store' : InMemoryGrantUsageStore} {o : KernelOp} {x : o.Answer}
    (h : InMemoryGrantUsageStore.serve store o = some (store', x)) :
    store'.getUsage namespaceId grantId =
      store.getUsage namespaceId grantId + usePrice namespaceId grantId ⟨o, x⟩ := by
  unfold InMemoryGrantUsageStore.serve at h
  split at h
  · cases h
    rfl
  · next n g bound =>
      rcases lt_or_ge (store.getUsage n g : ℤ) bound with hleft | hspent
      · obtain ⟨htaken, hcounts⟩ := InMemoryGrantUsageStore.tryConsume_taken hleft
        cases h
        rw [hcounts, htaken]
        unfold usePrice
        simp [consumedBy, eq_comm]
      · rw [InMemoryGrantUsageStore.tryConsume_refused hspent] at h
        cases h
        rfl
  · cases h

omit [HostPlatform] in
/-- A price is paid for a use of this grant, below the bound it was asked for with. -/
theorem priced_cases {store store' : InMemoryGrantUsageStore} {o : KernelOp} {x : o.Answer}
    (h : InMemoryGrantUsageStore.serve store o = some (store', x)) :
    usePrice namespaceId grantId ⟨o, x⟩ = 0 ∨ usePrice namespaceId grantId ⟨o, x⟩ = 1 ∧
      ∃ bound : ℤ, o = .tryConsume namespaceId grantId bound ∧
        (store.getUsage namespaceId grantId : ℤ) < bound := by
  unfold InMemoryGrantUsageStore.serve at h
  split at h
  · exact .inl rfl
  · next n g bound =>
      rcases lt_or_ge (store.getUsage n g : ℤ) bound with hleft | hspent
      · have htaken := (InMemoryGrantUsageStore.tryConsume_taken hleft).1
        cases h
        rw [htaken]
        by_cases hkey : n = namespaceId ∧ g = grantId
        · obtain ⟨rfl, rfl⟩ := hkey
          exact .inr ⟨if_pos rfl, bound, rfl, hleft⟩
        · refine .inl (if_neg fun heq => hkey ?_)
          exact Prod.mk.inj (Option.some.inj heq)
      · rw [InMemoryGrantUsageStore.tryConsume_refused hspent] at h
        cases h
        exact .inl rfl
  · cases h

omit [HostPlatform] in
theorem unserved_free {store : InMemoryGrantUsageStore} {o : KernelOp} (x : o.Answer)
    (h : InMemoryGrantUsageStore.serve store o = none) :
    usePrice namespaceId grantId ⟨o, x⟩ = 0 := by
  cases o <;> first | rfl | cases h

/-- Where a thread stands: its trace has spent nothing, or it has ended. -/
theorem thread_spent (hrun : run (usageStep kernel) (Pool.over .empty) labels = some pool)
    {t : UsageThread} (ht : t ∈ pool.threads) :
    (∀ o next, t.rest = .ask o next → AsksItsUse t.task.authority t.asked o) ∧
      ∀ r, t.rest = Program.ofExcept r → t.task.Ends t.asked r := by
  obtain ⟨hreaches, -⟩ := pool_reaches hrun t ht
  obtain ⟨hasks, hends⟩ := Program.wp_sound (@wp_body _ kernel t.task)
  refine ⟨fun o next hrest => ?_, fun r hrest => ?_⟩
  · rw [hrest] at hreaches
    simpa using hasks _ _ ⟨next, hreaches⟩
  · rw [hrest] at hreaches
    simpa using hends _ _ hreaches

/-- **Where a thread stands.** It has spent nothing and is no consuming allow of a bounded grant, or
it is one, and has spent the one use it was allowed for. -/
theorem thread_stands (hrun : run (usageStep kernel) (Pool.over .empty) labels = some pool)
    (hnamed : ∀ call, PoolLabel.start call ∈ labels → ∀ grant ∈ call.authority.grants,
      registry grant.namespaceId grant.id = grant)
    {t : UsageThread} (ht : t ∈ pool.threads) :
    (spent t.asked = [] ∧ ∀ n g, (registry n g).constraints.maxUses.isSome →
        allowsConsuming n g t = false) ∨
      ∃ n g, spent t.asked = [(n, g)] ∧ ∀ n' g', allowsConsuming n' g' t = true ↔
        n' = n ∧ g' = g := by
  obtain ⟨hasks, hends⟩ := thread_spent hrun ht
  obtain ⟨-, hstarted⟩ := pool_reaches hrun t ht
  have hregistry := hnamed _ hstarted
  obtain ⟨call, asked, rest⟩ := t
  -- by what the thread has come to, and then by its call
  cases rest with
  | ask o next => exact .inl ⟨(hasks o next rfl).1, fun n g _ => by cases call <;> rfl⟩
  | throw e =>
      refine .inl ⟨?_, fun n g _ => by cases call <;> rfl⟩
      have hend := hends (.error e) rfl
      cases call <;> exact hend
  | done answer =>
      have hend := hends (.ok answer) rfl
      cases call with
      | canDiscover authority ceiling now =>
          cases answer with
          | decided decision => exact .inl ⟨hend, fun _ _ _ => rfl⟩
          | reached result => exact hend.elim
      | reach authority now =>
          cases answer with
          | decided decision => exact hend.elim
          | reached result => exact .inl ⟨hend, fun _ _ _ => rfl⟩
      | authorize authority request consume now =>
          cases answer with
          | reached result => exact hend.elim
          | decided decision =>
              replace hend : Settles authority _ consume (spent asked) decision := hend
              dsimp only at hregistry ⊢
              generalize spent asked = uses at hend
              cases hend with
              | denied hdenied =>
                  exact .inl ⟨rfl, fun n g _ => by simp [allowsConsuming, hdenied]⟩
              | @allowed grant hgrant hnamespace hcovered =>
                  -- the names of a grant give its bound, whoever presents it
                  have hgrant' := hregistry grant hgrant
                  by_cases hspent : consume = true ∧ grant.constraints.maxUses.isSome
                  · rw [if_pos hspent]
                    refine .inr ⟨_, _, rfl, fun n g => ?_⟩
                    simp only [allowsConsuming, allow, hspent.1, hnamespace, Bool.true_and,
                      Bool.and_eq_true, decide_eq_true_eq, Option.some.injEq]
                    exact ⟨fun h => ⟨h.2.symm, h.1.symm⟩, fun h => ⟨h.2.symm, h.1.symm⟩⟩
                  · rw [if_neg hspent]
                    refine .inl ⟨rfl, fun n g hbounded => ?_⟩
                    by_contra hallows
                    simp only [allowsConsuming, allow, Bool.not_eq_false, Bool.and_eq_true,
                      decide_eq_true_eq, Option.some.injEq, and_true] at hallows
                    obtain ⟨⟨hconsume, rfl⟩, rfl⟩ := hallows
                    rw [← hnamespace, hgrant'] at hbounded
                    exact hspent ⟨hconsume, hbounded⟩

/-- **A thread is charged for its allow.** -/
theorem thread_charged (hrun : run (usageStep kernel) (Pool.over .empty) labels = some pool)
    (hnamed : ∀ call, PoolLabel.start call ∈ labels → ∀ grant ∈ call.authority.grants,
      registry grant.namespaceId grant.id = grant)
    (hbounded : (registry namespaceId grantId).constraints.maxUses = some maximumUses)
    {t : UsageThread} (ht : t ∈ pool.threads) :
    t.charged (usePrice namespaceId grantId) =
      if allowsConsuming namespaceId grantId t then 1 else 0 := by
  rw [charged_eq_count]
  rcases thread_stands hrun hnamed ht with ⟨hnone, hidle⟩ | ⟨n, g, hone, hallows⟩
  · rw [hnone, hidle _ _ (by rw [hbounded]; rfl)]
    rfl
  · rw [hone]
    by_cases hkey : namespaceId = n ∧ grantId = g
    · rw [if_pos ((hallows _ _).mpr hkey), hkey.1, hkey.2]
      simp
    · rw [if_neg fun h => hkey ((hallows _ _).mp h)]
      rw [List.count_eq_zero]
      rintro hmem
      obtain ⟨rfl, rfl⟩ := Prod.mk.inj (List.mem_singleton.mp hmem)
      exact hkey ⟨rfl, rfl⟩

theorem usage_eq_countP (hrun : run (usageStep kernel) (Pool.over .empty) labels = some pool)
    (hnamed : ∀ call, PoolLabel.start call ∈ labels → ∀ grant ∈ call.authority.grants,
      registry grant.namespaceId grant.id = grant)
    (hbounded : (registry namespaceId grantId).constraints.maxUses = some maximumUses) :
    pool.object.getUsage namespaceId grantId =
      pool.threads.countP (allowsConsuming namespaceId grantId) := by
  have hledger := pool_ledger (fun store => store.getUsage namespaceId grantId)
    (usePrice namespaceId grantId) (fun _ _ _ _ h => served_usage h)
    (fun _ _ x h => unserved_free x h) hrun
  have hcount : pool.charged (usePrice namespaceId grantId) =
      pool.threads.countP (allowsConsuming namespaceId grantId) :=
    sum_map_eq_countP fun t ht => thread_charged hrun hnamed hbounded ht
  rw [hledger, hcount]
  exact Nat.zero_add _

/-- **No grant is spent past its bound.** -/
theorem usage_le (hnamed : ∀ call, PoolLabel.start call ∈ labels →
      ∀ grant ∈ call.authority.grants, registry grant.namespaceId grant.id = grant)
    (hbounded : (registry namespaceId grantId).constraints.maxUses = some maximumUses)
    (hvalid : 0 ≤ maximumUses)
    (hrun : run (usageStep kernel) (Pool.over .empty) labels = some pool) :
    (pool.object.getUsage namespaceId grantId : ℤ) ≤ maximumUses := by
  induction labels using List.reverseRecOn generalizing pool with
  | nil =>
      cases hrun
      exact hvalid
  | append_singleton labels label ih =>
      obtain ⟨before, hbefore, hstep⟩ := run_snoc.mp hrun
      have hnamed' : ∀ call, PoolLabel.start call ∈ labels → ∀ grant ∈ call.authority.grants,
          registry grant.namespaceId grant.id = grant :=
        fun call hcall => hnamed call (List.mem_append_left _ hcall)
      have hle := ih hnamed' hbefore
      rcases poolStep_cases hstep with ⟨call, rfl, rfl⟩ |
        ⟨i, reply, t, o, next, store, x, rfl, hthread, hrest, hrespond, rfl⟩
      · exact hle
      · have ht := List.mem_of_getElem? hthread
        obtain ⟨-, hown⟩ := (thread_spent hbefore ht).1 o next hrest
        obtain ⟨-, hstarted⟩ := pool_reaches hbefore t ht
        show (store.getUsage namespaceId grantId : ℤ) ≤ maximumUses
        rcases respond_cases hrespond with hserve | ⟨-, rfl⟩
        · rw [served_usage hserve]
          have hpriced : usePrice namespaceId grantId ⟨o, x⟩ = 0 ∨ _ := priced_cases hserve
          rcases hpriced with hfree | ⟨hpaid, bound, rfl, hleft⟩
          · rw [hfree]
            exact hle
          · -- the bound the call asked with is the grant's own
            obtain ⟨grant, hgrant, rfl, rfl, hmax⟩ := hown _ _ _ rfl
            rw [hnamed' _ hstarted grant hgrant, hmax] at hbounded
            cases hbounded
            rw [hpaid]
            push_cast
            omega
        · exact hle

/-- A step that changes a count is the last step of an allow, and counts that one use. -/
theorem usage_changes (hrun : run (usageStep kernel) (Pool.over .empty) labels = some pool)
    (hnamed : ∀ call, PoolLabel.start call ∈ labels → ∀ grant ∈ call.authority.grants,
      registry grant.namespaceId grant.id = grant) {label : PoolLabel UsageCall KernelOp.Answer}
    (hstep : usageStep kernel pool label = some pool') :
    (∀ n g, pool'.object.getUsage n g = pool.object.getUsage n g) ∨
      ∃ i reply t n g, label = .answer i reply ∧ pool'.threads[i]? = some t ∧
        (∀ n' g', allowsConsuming n' g' t = true ↔ n' = n ∧ g' = g) ∧
        ∀ n' g', pool'.object.getUsage n' g' =
          pool.object.getUsage n' g' + if n' = n ∧ g' = g then 1 else 0 := by
  have hrun' := run_snoc.mpr ⟨pool, hrun, hstep⟩
  rcases poolStep_cases hstep with ⟨call, rfl, rfl⟩ |
    ⟨i, reply, t, o, next, store, x, rfl, hthread, hrest, hrespond, rfl⟩
  · exact .inl fun _ _ => rfl
  rcases respond_cases hrespond with hserve | ⟨-, rfl⟩
  · cases hconsumed : consumedBy ⟨o, x⟩ with
    | none =>
        refine .inl fun n g => ?_
        rw [show _ = _ from served_usage hserve, usePrice, hconsumed]
        rfl
    | some key =>
        obtain ⟨n, g⟩ := key
        have hasked := (thread_spent hrun (List.mem_of_getElem? hthread)).1 o next hrest
        have hspent : spent (t.asked ++ [⟨o, x⟩]) = [(n, g)] := by
          rw [spent_snoc, hasked.1, hconsumed]
          rfl
        have hi := (List.getElem?_eq_some_iff.mp hthread).1
        refine .inr ⟨i, reply, t.resume ⟨o, x⟩ (next x), n, g, rfl, List.getElem?_set_self hi, ?_,
          fun n' g' => ?_⟩
        · have hnamed' : ∀ call, PoolLabel.start call ∈ labels ++ [.answer i reply] →
              ∀ grant ∈ call.authority.grants, registry grant.namespaceId grant.id = grant := by
            intro call hcall
            rcases List.mem_append.mp hcall with hcall | hcall
            · exact hnamed call hcall
            · cases List.mem_singleton.mp hcall
          have hmem : t.resume ⟨o, x⟩ (next x) ∈
              (pool.threads.set i (t.resume ⟨o, x⟩ (next x))) := List.mem_set hi _
          rcases thread_stands hrun' hnamed' hmem with ⟨hnone, -⟩ | ⟨n', g', hone, hallows⟩
          · rw [show spent (t.resume _ _).asked = _ from hspent] at hnone
            cases hnone
          · rw [show spent (t.resume _ _).asked = _ from hspent] at hone
            cases hone
            exact hallows
        · rw [show _ = _ from served_usage hserve, usePrice, hconsumed]
          simp [eq_comm]
  · exact .inl fun _ _ => rfl

/-- An allow of a request that only one grant covers names that grant. -/
theorem only_allows (hrun : run (usageStep kernel) (Pool.over .empty) labels = some pool)
    {t : UsageThread} (ht : t ∈ pool.threads)
    (hmine : (onlySatisfiedBy namespaceId grantId t.task && allowed t) = true) :
    allowsConsuming namespaceId grantId t = true := by
  obtain ⟨-, hends⟩ := thread_spent hrun ht
  obtain ⟨call, asked, rest⟩ := t
  rw [Bool.and_eq_true] at hmine
  obtain ⟨honly, hallowed⟩ := hmine
  cases rest with
  | ask o next => cases hallowed
  | throw e => cases hallowed
  | done answer =>
      cases answer with
      | reached result => cases hallowed
      | decided decision =>
          cases call with
          | canDiscover authority ceiling now => cases honly
          | reach authority now => cases honly
          | authorize authority request consume now =>
              have hend : Settles authority _ consume (spent asked) decision := hends (.ok _) rfl
              simp only [onlySatisfiedBy, Bool.and_eq_true, decide_eq_true_eq] at honly
              obtain ⟨⟨hconsume, hnamespace⟩, hgrants⟩ := honly
              generalize spent asked = uses at hend
              cases hend with
              | denied hdenied =>
                  rw [show decision.allowed = true from hallowed] at hdenied
                  cases hdenied
              | @allowed grant hgrant _ hcovered =>
                  have hid := List.all_eq_true.mp hgrants grant hgrant
                  rw [List.any_eq_true.mpr hcovered] at hid
                  simp only [Bool.not_true, Bool.false_or, decide_eq_true_eq] at hid
                  simp [allowsConsuming, allow, hconsume, hid, hnamespace]

/-- **Bounded grants are spent exactly.** In every interleaving over one store, in which an id names
one grant of its namespace: the count of a bounded grant is the number of consuming decisions that
allowed and named it, within its bound. Only such a decision changes a count. And the requests that
one bounded grant alone can satisfy are allowed at most so often. -/
theorem bounded_grants_spent_exactly
    (hrun : run (usageStep kernel) (Pool.over .empty) labels = some pool)
    (hnamed : ∀ call, PoolLabel.start call ∈ labels → ∀ grant ∈ call.authority.grants,
      registry grant.namespaceId grant.id = grant) :
    (∀ namespaceId grantId maximumUses,
      (registry namespaceId grantId).constraints.maxUses = some maximumUses →
      pool.object.getUsage namespaceId grantId =
          pool.threads.countP (allowsConsuming namespaceId grantId) ∧
        (0 ≤ maximumUses →
          (pool.object.getUsage namespaceId grantId : ℤ) ≤ maximumUses ∧
          (pool.threads.countP (fun t =>
            onlySatisfiedBy namespaceId grantId t.task && allowed t) : ℤ) ≤ maximumUses)) ∧
    ∀ label pool', usageStep kernel pool label = some pool' →
      (∀ n g, pool'.object.getUsage n g = pool.object.getUsage n g) ∨
        ∃ i reply t n g, label = .answer i reply ∧ pool'.threads[i]? = some t ∧
          (∀ n' g', allowsConsuming n' g' t = true ↔ n' = n ∧ g' = g) ∧
          ∀ n' g', pool'.object.getUsage n' g' =
            pool.object.getUsage n' g' + if n' = n ∧ g' = g then 1 else 0 := by
  refine ⟨fun namespaceId grantId maximumUses hbounded => ?_, fun label pool' hstep =>
    usage_changes hrun hnamed hstep⟩
  have hcount := usage_eq_countP hrun hnamed hbounded
  refine ⟨hcount, fun hvalid => ?_⟩
  have hle := usage_le hnamed hbounded hvalid hrun
  refine ⟨hle, le_trans ?_ hle⟩
  rw [hcount]
  exact_mod_cast List.countP_mono_left fun t ht hmine => only_allows hrun ht hmine


end Ledger

namespace Sample

/-- A reading on the ticket alone, which is good for one. -/
def ticketReading : UsageCall :=
  .authorize { Core.Sample.authority with grants := [Core.Sample.ticket] } Core.Sample.reading true
    none

/-- Two readings on one ticket, both started before either asks the store. -/
def contendedTicket : List (PoolLabel UsageCall KernelOp.Answer) :=
  [.start ticketReading, .start ticketReading, .answer 1 surroundings, .answer 0 surroundings]

end Sample

open scoped SharedOS.Foundation.Reference in
theorem bounded_grants_spent_exactly_ticket :
    ∃ pool : UsagePool, run (usageStep Sample.kernel) (Pool.over .empty) Sample.contendedTicket =
        some pool ∧
      pool.threads.map allowed = [false, true] ∧
      pool.object.getUsage Core.Sample.ticket.namespaceId Core.Sample.ticket.id =
        pool.threads.countP
          (allowsConsuming Core.Sample.ticket.namespaceId Core.Sample.ticket.id) := by
  refine ⟨_, rfl, rfl, ?_⟩
  refine ((@bounded_grants_spent_exactly _ Sample.kernel Sample.contendedTicket _
    (fun _ _ => Core.Sample.ticket) rfl ?_).1 _ _ 1 rfl).1
  intro call hcall grant hgrant
  simp only [Sample.contendedTicket, List.mem_cons, PoolLabel.start.injEq, reduceCtorEq, or_false,
    or_self, List.not_mem_nil] at hcall
  subst hcall
  exact (List.mem_singleton.mp hgrant).symm

end SharedOS.Kernel
