/-
SharedOS.Kernel.Frames — which parts of an operation write nothing and enter no handler.

An authorizer, a load and a derivation ask their own ports and nothing else. That is the frame rule
the audit results rest on: whatever these parts do, the trail and the handlers are as they were. For
the authorizer it is stated for any set of operations that holds what its ports ask (`PortsUse`).
-/
import SharedOS.Kernel.InvokeTool

namespace SharedOS.Kernel

open SharedOS.Foundation SharedOS.Contracts SharedOS.Core

/-- Neither a write to the sink nor the entry of a handler. -/
def Silent : KernelOp → Prop
  | .record _ => False
  | .invokeHandler .. => False
  | _ => True

/-- The program neither writes nor enters a handler, whatever it is answered. -/
abbrev Quiet {α : Type} (p : KernelM α) : Prop := Program.Uses Silent p

/-- Neither a write to the sink nor the id of one, nor a function of a handler, nor what a handler
may write to. -/
def Plain : KernelOp → Prop
  | .record _ | .createAuditId => False
  | .parseArguments .. | .resolveRequirement .. | .invokeHandler .. => False
  | .heldContext .. | .heldRequirement .. => False
  | _ => True

theorem silent_of_plain {o : KernelOp} (h : Plain o) : Silent o := by
  cases o <;> trivial

/-- What asks no function of a handler enters none. -/
theorem quiet_of_plain {α : Type} {p : KernelM α} (h : Program.Uses Plain p) : Quiet p :=
  h.mono fun _ => silent_of_plain

theorem plain_ask {o : KernelOp} (h : Plain o) : Program.Uses Plain (ask o) := ⟨h, fun _ => trivial⟩

theorem plain_throwIfAborted : Program.Uses Plain throwIfAborted := by
  unfold throwIfAborted
  refine Program.Uses.bind (plain_ask trivial) fun aborted => ?_
  cases aborted
  · exact Program.uses_done ()
  · exact Program.uses_throw _

theorem quiet_throwIfAborted : Quiet throwIfAborted := quiet_of_plain plain_throwIfAborted

theorem quiet_stampEvent (context : AccessContext) (input : AuditEventInput) :
    Quiet (stampEvent context input) := ⟨trivial, fun _ => trivial⟩

theorem plain_reportProviderError (kernel : SharedOSKernel) (context : AccessContext)
    (reasonCode : JsString) (operation : ProviderErrorOperation) :
    Program.Uses Plain (reportProviderError kernel context reasonCode operation) := by
  unfold reportProviderError
  split
  · exact plain_ask trivial
  · exact Program.uses_done ()

theorem quiet_reportProviderError (kernel : SharedOSKernel) (context : AccessContext)
    (reasonCode : JsString) (operation : ProviderErrorOperation) :
    Quiet (reportProviderError kernel context reasonCode operation) :=
  quiet_of_plain (plain_reportProviderError ..)

/-! ## The authorizer -/

/-- Every port of the authorizer asks only operations of `S`, the spending one where uses are
consumed. -/
structure PortsUse (S : KernelOp → Prop) (options : CapabilityAuthorizerOptions KernelM)
    (consume : Bool) : Prop where
  getUsage : ∀ store, options.usageStore = some store → ∀ n g, (store.getUsage n g).Uses S
  tryConsume : consume = true → ∀ store, options.usageStore = some store →
    ∀ n g u, (store.tryConsume n g u).Uses S
  verify : ∀ verifier, options.grantVerifier = some verifier → ∀ g c, (verifier.verify g c).Uses S
  resolve : ∀ port, options.delegationResolver = some port → ∀ n g, (port.resolve n g).Uses S
  narrow : ∀ ceiling, options.hostCeiling = some ceiling →
    ∀ d r c p, (ceiling.narrow d r c p).Uses S
  report : ∀ report, options.onProviderError = some report → ∀ e, (report e).Uses S

theorem installed_eq_some {α : Type} {present : Bool} {component a : α}
    (h : installed present component = some a) : a = component := by
  unfold installed at h
  split at h
  · exact (Option.some.inj h).symm
  · cases h

/-- The operations the authorizer's ports stand for. -/
def AuthorizerOp (consume : Bool) : KernelOp → Prop
  | .getUsage .. | .verifyGrant .. | .resolveParent .. | .narrow .. | .onProviderError _ => True
  | .tryConsume .. => consume = true
  | _ => False

theorem portsUse_authorizer {S : KernelOp → Prop} {consume : Bool} (kernel : SharedOSKernel)
    (hS : ∀ o, AuthorizerOp consume o → S o) : PortsUse S kernel.authorizer consume where
  getUsage store h n g := by
    rw [installed_eq_some h]
    exact ⟨hS _ trivial, fun _ => trivial⟩
  tryConsume hconsume store h n g u := by
    rw [installed_eq_some h]
    exact ⟨hS _ hconsume, fun _ => trivial⟩
  verify verifier h g c := by
    rw [installed_eq_some h]
    exact ⟨hS _ trivial, fun _ => trivial⟩
  resolve port h n g := by
    rw [installed_eq_some h]
    exact ⟨hS _ trivial, fun _ => trivial⟩
  narrow ceiling h d r c p := by
    rw [installed_eq_some h]
    exact ⟨hS _ trivial, fun _ => trivial⟩
  report report h e := by
    rw [installed_eq_some h]
    exact ⟨hS _ trivial, fun _ => trivial⟩

theorem plain_of_authorizerOp {consume : Bool} {o : KernelOp} (h : AuthorizerOp consume o) :
    Plain o := by
  cases o <;> trivial

/-- Every port of the authorizer is `P`, the spending one where uses are consumed. -/
structure PortsMeet (P : {α : Type} → KernelM α → Prop)
    (options : CapabilityAuthorizerOptions KernelM) (consume : Bool) : Prop where
  getUsage : ∀ store, options.usageStore = some store → ∀ n g, P (store.getUsage n g)
  tryConsume : consume = true → ∀ store, options.usageStore = some store →
    ∀ n g u, P (store.tryConsume n g u)
  verify : ∀ verifier, options.grantVerifier = some verifier → ∀ g c, P (verifier.verify g c)
  resolve : ∀ port, options.delegationResolver = some port → ∀ n g, P (port.resolve n g)
  narrow : ∀ ceiling, options.hostCeiling = some ceiling → ∀ d r c p, P (ceiling.narrow d r c p)
  report : ∀ report, options.onProviderError = some report → ∀ e, P (report e)

/-- What every question has, the authorizer's ports have. -/
theorem portsMeet_authorizer {P : {α : Type} → KernelM α → Prop} (kernel : SharedOSKernel)
    (hask : ∀ o, P (ask o)) (consume : Bool) : PortsMeet P kernel.authorizer consume where
  getUsage _ h _ _ := installed_eq_some h ▸ hask _
  tryConsume _ _ h _ _ _ := installed_eq_some h ▸ hask _
  verify _ h _ _ := installed_eq_some h ▸ hask _
  resolve _ h _ _ := installed_eq_some h ▸ hask _
  narrow _ h _ _ _ _ := installed_eq_some h ▸ hask _
  report _ h _ := installed_eq_some h ▸ hask _

section Authorizer

variable [HostPlatform] {options : CapabilityAuthorizerOptions KernelM} {consume : Bool}
  {P : {α : Type} → KernelM α → Prop} (hP : Program.Compositional P)

include hP

theorem compositional_grantRejection (h : PortsMeet P options consume) (context : AccessContext)
    (grant : CapabilityGrant) (instants : GrantInstants) :
    P (grantRejection options context grant instants) := by
  unfold grantRejection
  split
  · exact hP.done _
  split
  · exact hP.done _
  split
  · exact hP.done _
  split
  · exact hP.done _
  · exact hP.done _
  · split
    · exact hP.done _
    · next verifier hverifier =>
        apply hP.bind (h.verify verifier hverifier _ _)
        intro answer
        split <;> exact hP.done _

theorem compositional_walkParents (h : PortsMeet P options consume) (context : AccessContext)
    (instants : GrantInstants) (remaining : ℕ) (child : CapabilityGrant)
    (seen chain : List JsString) :
    P (walkParents options.delegationResolver context instants remaining child seen chain) := by
  induction remaining generalizing child seen chain with
  | zero =>
      unfold walkParents
      split
      · exact hP.done _
      · split <;> exact hP.done _
  | succ remaining ih =>
      unfold walkParents
      split
      · exact hP.done _
      split
      · exact hP.done _
      · next port hport =>
          apply hP.bind (h.resolve port hport _ _)
          intro answer
          split
          · exact hP.done _
          · exact hP.done _
          · split
            · exact hP.done _
            split
            · exact hP.done _
            · exact ih _ _ _

theorem compositional_validateDelegation (h : PortsMeet P options consume) (context : AccessContext)
    (grant : CapabilityGrant) (instants : GrantInstants) :
    P (validateDelegation options context grant instants) := compositional_walkParents hP h ..

omit [HostPlatform] in
theorem compositional_applyCeiling (h : PortsMeet P options consume) (grantId : JsString)
    (request : CapabilityRequirement) (context : AccessContext)
    (hostPolicy : Option PolicyResolution) :
    P (applyCeiling options grantId request context hostPolicy) := by
  unfold applyCeiling
  split
  · exact hP.done _
  · next ceiling hceiling =>
      split
      · exact hP.done _
      · apply hP.bind (h.narrow ceiling hceiling _ _ _ _)
        intro answer
        split
        · split
          · exact hP.done _
          · next report hreport => exact hP.bind (h.report report hreport _) fun _ => hP.done _
        · exact hP.done _
        · split <;> exact hP.done _
        · exact hP.done _

omit [HostPlatform] in
theorem compositional_takeUse (h : PortsMeet P options consume) {store : GrantUsageStore KernelM}
    (hstore : options.usageStore = some store) (context : AccessContext) (grant : CapabilityGrant)
    (maximumUses : ℤ) :
    P (takeUse store context grant maximumUses consume) := by
  unfold takeUse
  split
  · next hconsume => exact h.tryConsume hconsume store hstore _ _ _
  · apply hP.bind (h.getUsage store hstore _ _)
    intro answer
    split <;> exact hP.done _

omit [HostPlatform] in
theorem compositional_spendGrant (h : PortsMeet P options consume) (context : AccessContext)
    (grant : CapabilityGrant) (walk : GrantWalk) :
    P (spendGrant options context grant consume walk) := by
  unfold spendGrant
  split
  · exact hP.done _
  split
  · exact hP.done _
  · next store hstore =>
      apply hP.bind (compositional_takeUse hP h hstore _ _ _)
      intro answer
      split <;> exact hP.done _

theorem compositional_considerGrant (h : PortsMeet P options consume) (authority : ResolvedAuthority)
    (request : CapabilityRequirement) (matcher : Matcher)
    (instants : GrantInstants) (walk : GrantWalk) (grant : CapabilityGrant) :
    P (considerGrant options authority request matcher consume instants walk grant) := by
  unfold considerGrant
  apply hP.bind (compositional_grantRejection hP h _ _ _)
  intro rejection
  split
  · exact hP.done _
  split
  · exact hP.done _
  apply hP.bind (compositional_validateDelegation hP h _ _ _)
  intro validation
  split
  · exact hP.done _
  apply hP.bind (compositional_applyCeiling hP h _ _ _ _)
  intro narrowed
  split
  · exact hP.done _
  split
  · exact hP.done _
  · exact compositional_spendGrant hP h _ _ _

theorem compositional_walkGrants (h : PortsMeet P options consume) (authority : ResolvedAuthority)
    (request : CapabilityRequirement) (matcher : Matcher)
    (instants : GrantInstants) (grants : List CapabilityGrant) (walk : GrantWalk) :
    P (walkGrants options authority request matcher consume instants walk grants) := by
  induction grants generalizing walk with
  | nil => exact hP.done _
  | cons grant rest ih =>
      unfold walkGrants
      apply hP.bind (compositional_considerGrant hP h _ _ _ _ _ _)
      intro consideration
      split
      · exact hP.done _
      · exact ih _

theorem compositional_decideOnGrants (h : PortsMeet P options consume) (authority : ResolvedAuthority)
    (request : CapabilityRequirement) (matcher : Matcher)
    (operationNow : Option JsString) (describeMissing : Bool) :
    P (decideOnGrants options authority request matcher consume operationNow
      describeMissing) := by
  unfold decideOnGrants
  dsimp only
  split
  · exact hP.done _
  split
  · exact hP.done _
  · apply hP.bind (compositional_walkGrants hP h _ _ _ _ _ _)
    intro consideration
    split <;> exact hP.done _

omit [HostPlatform] in
theorem compositional_budgetLeft (h : PortsMeet P options consume) (context : AccessContext)
    (grant : CapabilityGrant) : P (budgetLeft options context grant) := by
  unfold budgetLeft
  split
  · exact hP.done _
  split
  · exact hP.done _
  · next store hstore =>
      apply hP.bind (h.getUsage store hstore _ _)
      intro answer
      split <;> exact hP.done _

theorem compositional_collectReach (h : PortsMeet P options consume) (context : AccessContext)
    (instants : GrantInstants) (grants : List CapabilityGrant) (entries : List ResourceReach) :
    P (collectReach options context instants entries grants) := by
  induction grants generalizing entries with
  | nil => exact hP.done _
  | cons grant rest ih =>
      unfold collectReach
      apply hP.bind (compositional_grantRejection hP h _ _ _)
      intro rejection
      split
      · exact ih _
      apply hP.bind (compositional_validateDelegation hP h _ _ _)
      intro validation
      split
      · exact ih _
      apply hP.bind (compositional_budgetLeft hP h _ _)
      intro budget
      split
      · exact hP.done _
      · exact ih _
      · exact ih _

theorem compositional_reach (h : PortsMeet P options consume) (authority : ResolvedAuthority)
    (now : Option JsString) : P (reach options authority now) := by
  unfold reach
  split
  · exact hP.done _
  · apply hP.bind (compositional_collectReach hP h _ _ _ _)
    intro entries
    split <;> exact hP.done _

end Authorizer

section Uses

variable [HostPlatform] {options : CapabilityAuthorizerOptions KernelM} {S : KernelOp → Prop}
  {consume : Bool}

omit [HostPlatform] in
theorem PortsUse.meets (h : PortsUse S options consume) :
    PortsMeet (fun p => Program.Uses S p) options consume :=
  ⟨h.getUsage, h.tryConsume, h.verify, h.resolve, h.narrow, h.report⟩

theorem uses_grantRejection (h : PortsUse S options consume) (context : AccessContext)
    (grant : CapabilityGrant) (instants : GrantInstants) :
    Program.Uses S (grantRejection options context grant instants) :=
  compositional_grantRejection (Program.uses_compositional S) h.meets context grant instants

theorem uses_validateDelegation (h : PortsUse S options consume) (context : AccessContext)
    (grant : CapabilityGrant) (instants : GrantInstants) :
    Program.Uses S (validateDelegation options context grant instants) :=
  compositional_validateDelegation (Program.uses_compositional S) h.meets context grant instants

omit [HostPlatform] in
theorem uses_applyCeiling (h : PortsUse S options consume) (grantId : JsString)
    (request : CapabilityRequirement) (context : AccessContext)
    (hostPolicy : Option PolicyResolution) :
    Program.Uses S (applyCeiling options grantId request context hostPolicy) :=
  compositional_applyCeiling (Program.uses_compositional S) h.meets grantId request context
    hostPolicy

theorem uses_decideOnGrants (h : PortsUse S options consume) (authority : ResolvedAuthority)
    (request : CapabilityRequirement) (matcher : Matcher)
    (operationNow : Option JsString) (describeMissing : Bool) :
    Program.Uses S (decideOnGrants options authority request matcher consume operationNow
      describeMissing) :=
  compositional_decideOnGrants (Program.uses_compositional S) h.meets authority request matcher
    operationNow describeMissing

theorem uses_reach (h : PortsUse S options consume) (authority : ResolvedAuthority)
    (now : Option JsString) : Program.Uses S (reach options authority now) :=
  compositional_reach (Program.uses_compositional S) h.meets authority now

end Uses

theorem plain_decideOnGrants [HostPlatform] (kernel : SharedOSKernel)
    (authority : ResolvedAuthority) (request : CapabilityRequirement) (matcher : Matcher)
    (consume : Bool) (operationNow : Option JsString) (describeMissing : Bool) :
    Program.Uses Plain (decideOnGrants kernel.authorizer authority request matcher consume
      operationNow describeMissing) :=
  uses_decideOnGrants (portsUse_authorizer kernel fun _ => plain_of_authorizerOp) ..

theorem quiet_decideOnGrants [HostPlatform] (kernel : SharedOSKernel)
    (authority : ResolvedAuthority) (request : CapabilityRequirement) (matcher : Matcher)
    (consume : Bool) (operationNow : Option JsString) (describeMissing : Bool) :
    Quiet (decideOnGrants kernel.authorizer authority request matcher consume operationNow
      describeMissing) := quiet_of_plain (plain_decideOnGrants ..)

/-! ## Loads and derivations -/

section Loads

variable [HostPlatform] (kernel : SharedOSKernel) (context : AccessContext)

omit [HostPlatform] in
theorem plain_loadHostPolicy : Program.Uses Plain (loadHostPolicy kernel context) := by
  have houtage : Program.Uses Plain (reportPolicyOutage kernel context) :=
    plain_reportProviderError ..
  unfold loadHostPolicy
  split
  · exact Program.uses_done _
  · refine Program.Uses.bind (plain_ask trivial) fun answer => ?_
    split
    · exact plain_throwIfAborted.bind fun _ => houtage.bind fun _ => Program.uses_done _
    · exact houtage.bind fun _ => Program.uses_done _
    · split
      · exact houtage.bind fun _ => Program.uses_done _
      · exact Program.uses_done _

omit [HostPlatform] in
theorem quiet_loadHostPolicy : Quiet (loadHostPolicy kernel context) :=
  quiet_of_plain (plain_loadHostPolicy kernel context)

theorem plain_resolveGrants : Program.Uses Plain (resolveGrants context) := by
  unfold resolveGrants
  refine Program.Uses.bind (plain_ask trivial) fun answer => ?_
  split
  · exact plain_throwIfAborted.bind fun _ => Program.uses_done _
  · exact Program.uses_done _

theorem quiet_resolveGrants : Quiet (resolveGrants context) :=
  quiet_of_plain (plain_resolveGrants context)

omit [HostPlatform] in
theorem plain_listProviders (providers : List JsString) (registry : ToolRegistry) :
    Program.Uses Plain (listProviders catalogPortsOf context registry providers) := by
  have haborted : Program.Uses Plain catalogPortsOf.aborted := plain_ask trivial
  induction providers generalizing registry with
  | nil => exact Program.uses_done _
  | cons provider rest ih =>
      unfold listProviders
      apply haborted.bind
      intro aborted
      split
      · exact Program.uses_done _
      apply (show Program.Uses Plain (catalogPortsOf.listTools provider context) from
        plain_ask trivial).bind
      intro answer
      split
      · apply haborted.bind
        intro aborted
        split <;> exact Program.uses_done _
      · exact Program.uses_done _
      · split
        · exact Program.uses_done _
        · exact ih _

theorem plain_resolveToolRegistry : Program.Uses Plain (resolveToolRegistry kernel context) := by
  unfold resolveToolRegistry
  refine Program.Uses.bind (plain_ask trivial) fun answer => ?_
  split
  · exact Program.uses_done _
  · unfold deriveToolRegistry
    split
    · exact Program.uses_done _
    · exact plain_listProviders _ _ _

theorem quiet_resolveToolRegistry : Quiet (resolveToolRegistry kernel context) :=
  quiet_of_plain (plain_resolveToolRegistry kernel context)

end Loads

end SharedOS.Kernel
