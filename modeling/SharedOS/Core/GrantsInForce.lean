/-
SharedOS.Core.GrantsInForce — a reach is the projection of the grants found in force.

`grantsInForce` is the walk of `reach` without its projection: it keeps the grants that would
authorize something. In any surroundings, `reach` asks what that walk asks and answers with the
projection of what it keeps (`reach_eq`). So what holds of every sublist of a loaded authority holds
of every reach: it is within the bounds of a list (`withinList_reachOver`).
-/
import SharedOS.Core.AgentCard
import SharedOS.Core.Reach
import SharedOS.Foundation.Program

namespace SharedOS.Core

open SharedOS.Foundation SharedOS.Contracts

section Walk

variable [HostPlatform] {m : Type → Type} [Monad m]

/-- The grants that would authorize something, or none where a budget cannot be read. -/
def grantsInForce (options : CapabilityAuthorizerOptions m) (context : AccessContext)
    (instants : GrantInstants) : List CapabilityGrant → m (Option (List CapabilityGrant))
  | [] => pure (some [])
  | grant :: rest => do
    match ← grantRejection options context grant instants with
    | some _ => grantsInForce options context instants rest
    | none =>
      match delegationFailureOf (← validateDelegation options context grant instants) with
      | some _ => grantsInForce options context instants rest
      | none =>
        match ← budgetLeft options context grant with
        | .unavailable => pure none
        | .spent => grantsInForce options context instants rest
        | .available => do
          let kept ← grantsInForce options context instants rest
          pure (kept.map (grant :: ·))

/-- The grants of an authority in force at an instant. In a context that can authorize nothing none
is. -/
def authorityInForce (options : CapabilityAuthorizerOptions m) (authority : ResolvedAuthority)
    (now : Option JsString) : m (Option (List CapabilityGrant)) :=
  match decisionInstants authority.context now with
  | none => pure (some [])
  | some instants => grantsInForce options authority.context instants authority.grants

end Walk

section Projection

variable [HostPlatform]

/-- The entries of the grants' capabilities, in the context's world. -/
def projected (context : AccessContext) (grants : List CapabilityGrant) : List ResourceReach :=
  grants.flatMap fun grant => grant.capabilities.filterMap (reachEntry context)

/-- The entries as a reach lists them. -/
def reachOver (context : AccessContext) (grants : List CapabilityGrant) : List ResourceReach :=
  sortReach ((projected context grants).foldl (setByKey reachKey) [])

/-- What a reach answers on what was found in force. -/
def reachResultOver (context : AccessContext) : Option (List CapabilityGrant) → ReachResult
  | none => .unavailable .usageStoreUnavailable
  | some grants => .computed (reachOver context grants)

section Programs

variable {Op : Type} {Ans : Op → Type} {ε : Type}

/-- **The walk of a reach keeps the grants and then projects them.** -/
theorem collectReach_eq (options : CapabilityAuthorizerOptions (Program Op Ans ε))
    (context : AccessContext) (instants : GrantInstants) (grants : List CapabilityGrant)
    (entries : List ResourceReach) :
    collectReach options context instants entries grants =
      grantsInForce options context instants grants >>= fun kept =>
        pure (kept.map fun kept => (projected context kept).foldl (setByKey reachKey) entries) := by
  induction grants generalizing entries with
  | nil => rfl
  | cons grant rest ih =>
      unfold collectReach grantsInForce
      rw [Program.bind_assoc]
      refine congrArg _ (funext fun rejection => ?_)
      cases rejection with
      | some reason => exact ih entries
      | none =>
          dsimp only
          rw [Program.bind_assoc]
          refine congrArg _ (funext fun chain => ?_)
          cases delegationFailureOf chain with
          | some failure => exact ih entries
          | none =>
              dsimp only
              rw [Program.bind_assoc]
              refine congrArg _ (funext fun budget => ?_)
              cases budget with
              | unavailable => rfl
              | spent => exact ih entries
              | available =>
                  dsimp only
                  rw [ih, Program.bind_assoc]
                  refine congrArg _ (funext fun kept => ?_)
                  cases kept with
                  | none => rfl
                  | some kept =>
                      show Program.done _ = Program.done _
                      simp [projected, List.foldl_append]

/-- **A reach asks what the walk asks**, and answers with the projection. -/
theorem reach_eq (options : CapabilityAuthorizerOptions (Program Op Ans ε))
    (authority : ResolvedAuthority) (now : Option JsString) :
    reach options authority now =
      authorityInForce options authority now >>= fun kept =>
        pure (reachResultOver authority.context kept) := by
  unfold reach authorityInForce
  cases decisionInstants authority.context now with
  | none => rfl
  | some instants =>
      dsimp only
      rw [collectReach_eq, Program.bind_assoc]
      refine congrArg _ (funext fun kept => ?_)
      cases kept <;> rfl

/-- Every grant kept is one of the authority's, and none is kept twice. -/
theorem grantsInForce_sublist (options : CapabilityAuthorizerOptions (Program Op Ans ε))
    (context : AccessContext) (instants : GrantInstants) (grants : List CapabilityGrant) :
    Program.Returns (fun kept => ∀ k, kept = some k → k.Sublist grants)
      (grantsInForce options context instants grants) := by
  have hskip : ∀ {grant : CapabilityGrant} {rest : List CapabilityGrant}
      {p : Program Op Ans ε (Option (List CapabilityGrant))},
      Program.Returns (fun kept => ∀ k, kept = some k → k.Sublist rest) p →
      Program.Returns (fun kept => ∀ k, kept = some k → k.Sublist (grant :: rest)) p := by
    intro grant rest p hp
    exact hp.mono fun kept hkept k hk => (hkept k hk).cons grant
  induction grants with
  | nil =>
      intro k hk
      cases hk
      exact .slnil
  | cons grant rest ih =>
      unfold grantsInForce
      refine Program.returns_bind fun rejection => ?_
      cases rejection with
      | some reason => exact hskip ih
      | none =>
          refine Program.returns_bind fun chain => ?_
          cases delegationFailureOf chain with
          | some failure => exact hskip ih
          | none =>
              refine Program.returns_bind fun budget => ?_
              cases budget with
              | unavailable =>
                  intro k hk
                  cases hk
              | spent => exact hskip ih
              | available =>
                  refine ih.bind fun kept hkept k hk => ?_
                  obtain ⟨k', hk', rfl⟩ := Option.map_eq_some_iff.mp hk
                  exact (hkept k' hk').cons_cons grant

theorem authorityInForce_sublist (options : CapabilityAuthorizerOptions (Program Op Ans ε))
    (authority : ResolvedAuthority) (now : Option JsString) :
    Program.Returns (fun kept => ∀ k, kept = some k → k.Sublist authority.grants)
      (authorityInForce options authority now) := by
  unfold authorityInForce
  cases decisionInstants authority.context now with
  | none =>
      intro k hk
      cases hk
      exact List.nil_sublist _
  | some instants => exact grantsInForce_sublist ..

end Programs

/-! ## The bounds of a reach -/

/-- The entry of a kept capability is its own parse. -/
theorem resourceReachSchema_reachEntry {context : AccessContext} {c : Capability}
    {entry : ResourceReach} (hc : capabilitySchema c = some c)
    (h : reachEntry context c = some entry) : resourceReachSchema entry = some entry := by
  unfold reachEntry at h
  split at h
  · cases h
  · cases h
    unfold capabilitySchema at hc
    simp only [Option.bind_eq_bind, Option.bind_eq_some_iff] at hc
    obtain ⟨resource, hresource, actions, hactions, heq⟩ := hc
    have hself := Option.some.inj heq
    have hres : resource = c.resource := congrArg Capability.resource hself
    have hact : actions = c.actions := congrArg Capability.actions hself
    rw [hres] at hresource
    rw [hact] at hactions
    unfold resourceRefSchema at hresource
    simp only [Option.bind_eq_bind, Option.bind_eq_some_iff] at hresource
    obtain ⟨name, hname, path, hpath, owner, -, hr⟩ := hresource
    have href := Option.some.inj hr
    have hns : name = c.resource.namespace := congrArg ResourceRef.namespace href
    have hp : path = c.resource.path := congrArg ResourceRef.path href
    rw [hns] at hname
    rw [hp] at hpath
    obtain ⟨hbounds, hitems⟩ := arraySchema_eq_self_iff.mp hactions
    refine resourceReachSchema_eq_self hname hpath (arraySchema_eq_self_iff.mpr ⟨?_, ?_⟩)
    · rwa [(sortStrings_perm c.actions).length_eq]
    · exact fun a ha => hitems a (mem_sortStrings.mp ha)

theorem length_projected_le {context : AccessContext} {grants : List CapabilityGrant}
    (h : ∀ grant ∈ grants, grant.capabilities.length ≤ 64) :
    (projected context grants).length ≤ 64 * grants.length := by
  induction grants with
  | nil => simp [projected]
  | cons grant rest ih =>
      have hgrant := h grant List.mem_cons_self
      have hrest := ih fun g hg => h g (List.mem_cons_of_mem _ hg)
      have hfilter := List.length_filterMap_le (reachEntry context) grant.capabilities
      unfold projected at hrest ⊢
      rw [List.flatMap_cons, List.length_append, List.length_cons]
      omega

theorem mem_reachOver {context : AccessContext} {grants : List CapabilityGrant}
    {entry : ResourceReach} :
    entry ∈ reachOver context grants ↔ entry ∈ projected context grants := by
  unfold reachOver sortReach
  rw [mem_sortByKey, mem_foldl_setByKey reachKey_injective]
  simp

/-- **A reach over grants of a loaded authority is within its list.** -/
theorem withinList_reachOver {authority : ResolvedAuthority} (hloaded : WellLoaded authority)
    {context : AccessContext} {kept : List CapabilityGrant}
    (hkept : kept.Sublist authority.grants) : WithinList (reachOver context kept) := by
  have hgrant : ∀ grant ∈ kept, GrantKept grant := fun grant hg =>
    hloaded.kept grant (hkept.subset hg)
  refine ⟨?_, fun entry hentry => ?_⟩
  · have hsmall : ∀ grant ∈ kept, grant.capabilities.length ≤ 64 := fun grant hg =>
      (arraySchema_eq_self_iff.mp (hgrant grant hg).capabilities).1.2
    have hprojected : (projected context kept).length ≤ 64 * kept.length :=
      length_projected_le hsmall
    have hfew : kept.length ≤ 256 := hkept.length_le.trans hloaded.few
    have hsorted : (reachOver context kept).length =
        ((projected context kept).foldl (setByKey reachKey) []).length :=
      (List.perm_insertionSort _ _).length_eq
    have hmap := @length_foldl_setByKey_le _ _ _ reachKey [] (projected context kept)
    rw [List.length_nil] at hmap
    omega
  · obtain ⟨grant, hg, hentry⟩ := List.mem_flatMap.mp (mem_reachOver.mp hentry)
    obtain ⟨c, hc, heq⟩ := List.mem_filterMap.mp hentry
    exact resourceReachSchema_reachEntry
      ((arraySchema_eq_self_iff.mp (hgrant grant hg).capabilities).2 c hc) heq

/-- Whether a reach can be summarized is decided by the capabilities of the grants in force. -/
theorem summarizable_reachOver {context : AccessContext} {grants : List CapabilityGrant} :
    Summarizable (reachOver context grants) ↔ Summarizable (projected context grants) :=
  summarizable_congr fun _ => mem_reachOver

end Projection

end SharedOS.Core
