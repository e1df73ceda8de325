/-
SharedOS.Core.Reach — the reach of an authority is what `authorize` would allow.

Two walks over the grants are compared. `authorize` stops at the first usable grant, and `reach`
projects every one, deduplicates by a canonical key and sorts by another. Both keys determine
their entry (`reachKey_injective`, `reachOrder_injective`), so a reach depends on the grants only
as a set, and its entries cover exactly the requests some grant is usable for.
-/
import SharedOS.Core.DelegationChain
import SharedOS.Core.GrantWalk

namespace SharedOS.Core

open SharedOS.Foundation SharedOS.Contracts

section Spec

variable [HostPlatform]

/-! ## Both keys determine the entry -/

omit [HostPlatform] in
theorem numberFree_scope (scope : Scope) : scope.toJson.NumberFree := by
  cases scope <;> exact .str _

theorem canonicalJson_scope_inj {a b : Scope} (h : canonicalJson a.toJson = canonicalJson b.toJson) :
    a = b := by
  cases a <;> cases b <;> first
    | rfl
    | exact absurd (canonicalJson_str_inj h) (by decide)

omit [HostPlatform] in
theorem numberFree_reach (entry : ResourceReach) : entry.toJson.NumberFree := by
  refine .obj fun e he => ?_
  simp only [List.mem_cons, List.not_mem_nil, or_false] at he
  rcases he with rfl | rfl | rfl | rfl
  · exact .str _
  · exact numberFree_jsonStrings _
  · exact numberFree_jsonStrings _
  · exact numberFree_scope _

theorem reachKey_injective : Function.Injective reachKey := by
  intro a b h
  have hkeys : ((["namespace", "path", "actions", "scope"] : List JsString)).Nodup := by decide
  have hfield : ∀ {k v w}, (k, v) ∈ _ → (k, w) ∈ _ → canonicalJson v = canonicalJson w :=
    canonicalJson_field (numberFree_reach a) (numberFree_reach b) hkeys h
  have hns := canonicalJson_str_inj (hfield (List.mem_cons_self ..) (List.mem_cons_self ..))
  have hpath := canonicalJson_jsonStrings_inj
    (@hfield "path" (jsonStrings a.path) (jsonStrings b.path) (by simp) (by simp))
  have hactions := canonicalJson_jsonStrings_inj
    (@hfield "actions" (jsonStrings a.actions) (jsonStrings b.actions) (by simp) (by simp))
  have hscope := canonicalJson_scope_inj
    (@hfield "scope" a.scope.toJson b.scope.toJson (by simp) (by simp))
  exact ResourceReach.ext hns hpath hactions hscope

/-- The value an entry is ordered by. Nothing in it has keys to sort. -/
theorem reachOrder_injective : Function.Injective reachOrder := by
  intro a b h
  have hfree : ∀ entry : ResourceReach, (Json.arr [.str entry.namespace, jsonStrings entry.path,
      entry.scope.toJson, jsonStrings entry.actions]).NumberFree := by
    intro entry
    refine .arr fun v hv => ?_
    simp only [List.mem_cons, List.not_mem_nil, or_false] at hv
    rcases hv with rfl | rfl | rfl | rfl
    · exact .str _
    · exact numberFree_jsonStrings _
    · exact numberFree_scope _
    · exact numberFree_jsonStrings _
  have hscope : ∀ scope : Scope, scope.toJson.sortKeys HostPlatform.localeCompare =
      scope.toJson := by
    intro scope
    cases scope <;> rfl
  have hsorted := sortKeys_eq_of_canonicalJson (hfree a) (hfree b) h
  simp only [Json.sortKeys, Json.sortKeysItems, sortKeys_jsonStrings, hscope, Json.arr.injEq,
    List.cons.injEq, Json.str.injEq, and_true] at hsorted
  obtain ⟨hns, hpath, hsc, hact⟩ := hsorted
  exact ResourceReach.ext hns (jsonStrings_inj hpath) (jsonStrings_inj hact)
    (canonicalJson_scope_inj (congrArg canonicalJson hsc))

/-! ## What a reach lists -/

/-- The grant would authorize something at this instant. -/
structure Contributes (options : CapabilityAuthorizerOptions Id) (context : AccessContext)
    (instants : GrantInstants) (grant : CapabilityGrant) : Prop where
  eligible : Eligible options context instants grant
  budget : budgetLeft options context grant = BudgetStatus.available

/-- The entry is the projection of a capability of a contributing grant. -/
def Listed (options : CapabilityAuthorizerOptions Id) (context : AccessContext)
    (instants : GrantInstants) (grants : List CapabilityGrant) (entry : ResourceReach) : Prop :=
  ∃ grant ∈ grants, Contributes options context instants grant ∧
    ∃ c ∈ grant.capabilities, reachEntry context c = some entry

section Collect

variable {options : CapabilityAuthorizerOptions Id} {context : AccessContext}
  {instants : GrantInstants}

theorem listed_cons_of_not {grant : CapabilityGrant} {rest : List CapabilityGrant}
    (h : ¬ Contributes options context instants grant) {entry : ResourceReach} :
    Listed options context instants (grant :: rest) entry ↔
      Listed options context instants rest entry := by
  constructor
  · rintro ⟨g, hg, hcontributes, hc⟩
    rcases List.mem_cons.mp hg with rfl | hg
    · exact absurd hcontributes h
    · exact ⟨g, hg, hcontributes, hc⟩
  · rintro ⟨g, hg, hcontributes, hc⟩
    exact ⟨g, List.mem_cons_of_mem _ hg, hcontributes, hc⟩

theorem listed_cons_of_contributes {grant : CapabilityGrant} {rest : List CapabilityGrant}
    (h : Contributes options context instants grant) {entry : ResourceReach} :
    Listed options context instants (grant :: rest) entry ↔
      entry ∈ grant.capabilities.filterMap (reachEntry context) ∨
        Listed options context instants rest entry := by
  rw [List.mem_filterMap]
  constructor
  · rintro ⟨g, hg, hcontributes, hc⟩
    rcases List.mem_cons.mp hg with rfl | hg
    · exact .inl hc
    · exact .inr ⟨g, hg, hcontributes, hc⟩
  · rintro (hc | ⟨g, hg, hcontributes, hc⟩)
    · exact ⟨grant, List.mem_cons_self .., h, hc⟩
    · exact ⟨g, List.mem_cons_of_mem _ hg, hcontributes, hc⟩

/-- One round of the walk. -/
theorem collectReach_cons {entries : List ResourceReach} {grant : CapabilityGrant}
    {rest : List CapabilityGrant} :
    collectReach options context instants entries (grant :: rest) =
      (match grantRejection options context grant instants with
        | some _ => collectReach options context instants entries rest
        | none =>
          match delegationFailureOf (validateDelegation options context grant instants) with
          | some _ => collectReach options context instants entries rest
          | none =>
            match budgetLeft options context grant with
            | .unavailable => (none : Option (List ResourceReach))
            | .spent => collectReach options context instants entries rest
            | .available =>
              collectReach options context instants
                ((grant.capabilities.filterMap (reachEntry context)).foldl (setByKey reachKey)
                  entries) rest) := rfl

/-- **What is collected**: each listed entry once, as long as no budget that matters is
unreadable. -/
theorem collectReach_spec {grants : List CapabilityGrant} {entries : List ResourceReach}
    (hreadable : ∀ grant, budgetLeft options context grant ≠ BudgetStatus.unavailable)
    (hnodup : entries.Nodup) :
    ∃ collected, collectReach options context instants entries grants =
        (some collected : Option (List ResourceReach)) ∧ collected.Nodup ∧
      ∀ entry, entry ∈ collected ↔
        entry ∈ entries ∨ Listed options context instants grants entry := by
  induction grants generalizing entries with
  | nil => exact ⟨entries, rfl, hnodup, fun entry => by simp [Listed]⟩
  | cons grant rest ih =>
      rw [collectReach_cons]
      -- a grant that contributes nothing leaves the entries as they are
      have hskip : ¬ Contributes options context instants grant →
          ∃ collected, collectReach options context instants entries rest =
              (some collected : Option (List ResourceReach)) ∧ collected.Nodup ∧
            ∀ entry, entry ∈ collected ↔
              entry ∈ entries ∨ Listed options context instants (grant :: rest) entry := by
        intro hnot
        obtain ⟨collected, heq, hcollected, hmem⟩ := ih hnodup
        exact ⟨collected, heq, hcollected, fun entry => by rw [hmem, listed_cons_of_not hnot]⟩
      cases hrejection : grantRejection options context grant instants with
      | some reason =>
          refine hskip fun h => ?_
          have hnone := hrejection.symm.trans h.eligible.unrejected
          cases hnone
      | none =>
          cases hchain : delegationFailureOf
              (validateDelegation options context grant instants) with
          | some failure =>
              refine hskip fun h => ?_
              have hnone := hchain.symm.trans h.eligible.chained
              cases hnone
          | none =>
              cases hbudget : budgetLeft options context grant with
              | unavailable => exact absurd hbudget (hreadable grant)
              | spent =>
                  refine hskip fun h => ?_
                  have hnone := hbudget.symm.trans h.budget
                  cases hnone
              | available =>
                  obtain ⟨collected, heq, hcollected, hmem⟩ := ih
                    (nodup_foldl_setByKey reachKey_injective hnodup)
                  refine ⟨collected, heq, hcollected, fun entry => ?_⟩
                  rw [hmem, mem_foldl_setByKey reachKey_injective,
                    listed_cons_of_contributes ⟨⟨hrejection, hchain⟩, hbudget⟩, or_assoc]

end Collect

/-- **A computed reach**, as a set: the listed entries at the instants of the question, and none
when the context is not one to decide in. -/
theorem reach_computed {options : CapabilityAuthorizerOptions Id} {authority : ResolvedAuthority}
    {now : Option JsString} (hstore : StoreAnswers options) :
    ∃ entries, reach options authority now = ReachResult.computed (sortReach entries) ∧
      entries.Nodup ∧ ∀ entry, entry ∈ entries ↔
        ∃ instants, decisionInstants authority.context now = some instants ∧
          Listed options authority.context instants authority.grants entry := by
  unfold reach
  cases hinstants : decisionInstants authority.context now with
  | none => exact ⟨[], rfl, List.nodup_nil, fun entry => by simp⟩
  | some instants =>
      obtain ⟨collected, heq, hnodup, hmem⟩ := @collectReach_spec _ options authority.context
        instants authority.grants [] (fun _ => hstore.budget_readable) List.nodup_nil
      refine ⟨collected, ?_, hnodup, fun entry => ?_⟩
      · show (match collectReach options authority.context instants [] authority.grants with
          | none => _
          | some entries => _) = _
        rw [heq]
        rfl
      · rw [hmem]
        simp

/-! ## Agreement -/

/-- The requests a reader of an entry may expect to be authorized. -/
def ReachCovers (entry : ResourceReach) (request : CapabilityRequirement) : Prop :=
  entry.namespace = request.resource.namespace ∧ ActionsCover entry.actions request.action ∧
    match entry.scope with
    | .exact => entry.path = request.resource.path
    | .descendants => entry.path <+: request.resource.path

/-- For a request in the context's world, a capability matches exactly when it has an entry and
the entry covers the request. -/
theorem capabilityMatches_iff_reachEntry {c : Capability} {request : CapabilityRequirement}
    {context : AccessContext}
    (hworld : request.resource.owner.getD context.owner = context.owner) :
    capabilityMatches c request context = true ↔
      ∃ entry, reachEntry context c = some entry ∧ ReachCovers entry request := by
  have hcovers : ReachCovers ⟨c.resource.namespace, c.resource.path, sortStrings c.actions, c.scope⟩
      request ↔ c.resource.namespace = request.resource.namespace ∧
        ActionsCover c.actions request.action ∧
        request.resource.path ∈ (regionOf c).paths := by
    unfold ReachCovers ActionsCover regionOf
    simp only [mem_sortStrings]
    refine and_congr_right fun _ => and_congr_right fun _ => ?_
    cases c.scope with
    | exact => exact PathRegion.mem_node.symm
    | descendants => exact PathRegion.mem_subtree.symm
  rw [capabilityMatches_iff]
  unfold reachEntry
  show _ ∧ _ ∧ c.resource.owner.getD context.owner = request.resource.owner.getD context.owner ∧
    _ ↔ _
  rw [hworld]
  by_cases hown : c.resource.owner.getD context.owner = context.owner
  · rw [if_neg (by simp [hown])]
    constructor
    · rintro ⟨hns, hact, _, hpath⟩
      exact ⟨_, rfl, hcovers.mpr ⟨hns, hact, hpath⟩⟩
    · rintro ⟨entry, heq, hentry⟩
      cases heq
      obtain ⟨hns, hact, hpath⟩ := hcovers.mp hentry
      exact ⟨hns, hact, hown, hpath⟩
  · have hforeign : addressesEqual (c.resource.owner.getD context.owner) context.owner = false :=
      Bool.eq_false_iff.mpr fun h => hown (addressesEqual_iff.mp h)
    rw [if_pos (by rw [hforeign]; rfl)]
    refine iff_of_false (fun h => hown h.2.2.1) ?_
    rintro ⟨entry, heq, _⟩
    cases heq

theorem requestIsWellFormed_iff {request : CapabilityRequirement} {context : AccessContext} :
    requestIsWellFormed request context = true ↔
      request.action ≠ [] ∧ request.resource.namespace ≠ [] ∧
        request.resource.owner.getD context.owner = context.owner := by
  unfold requestIsWellFormed
  simp [and_assoc]

/-- **Reach is exactly what `authorize` would allow**, and does not depend on the order of the
grants. -/
theorem reach_agrees_with_authorize {options : CapabilityAuthorizerOptions Id}
    {authority : ResolvedAuthority} {now : Option JsString}
    (hceiling : options.hostCeiling = none) (hstore : StoreAnswers options) :
    ∃ entries, reach options authority now = ReachResult.computed entries ∧
      (∀ request : CapabilityRequirement, request.resource.namespace ≠ [] →
        request.action ≠ [] → request.resource.owner = none ∨
          request.resource.owner = some authority.context.owner →
        (Authorizes options authority request now ↔
          ∃ entry ∈ entries, ReachCovers entry request)) ∧
      ∀ grants', authority.grants.Perm grants' →
        reach options { authority with grants := grants' } now =
          ReachResult.computed entries := by
  obtain ⟨entries, heq, hnodup, hmem⟩ := @reach_computed _ options authority now hstore
  refine ⟨sortReach entries, heq, ?_, ?_⟩
  · intro request hns hact howner
    have hworld : request.resource.owner.getD authority.context.owner =
        authority.context.owner := by
      rcases howner with h | h <;> rw [h] <;> rfl
    have hformed := requestIsWellFormed_iff.mpr ⟨hact, hns, hworld⟩
    rw [authorizes_iff_usable hceiling hstore]
    constructor
    · rintro ⟨instants, hinstants, _, grant, hgrant, husable⟩
      obtain ⟨c, hc, hmatch⟩ := husable.carries.covered
      obtain ⟨entry, hentry, hcovers⟩ := (capabilityMatches_iff_reachEntry hworld).mp hmatch
      refine ⟨entry, mem_sortByKey.mpr ((hmem entry).mpr ⟨instants, hinstants, grant, hgrant,
        ⟨husable.carries.eligible, husable.budget⟩, c, hc, hentry⟩), hcovers⟩
    · rintro ⟨entry, hentry, hcovers⟩
      obtain ⟨instants, hinstants, grant, hgrant, hcontributes, c, hc, heq'⟩ :=
        (hmem entry).mp (mem_sortByKey.mp hentry)
      have hmatch := (capabilityMatches_iff_reachEntry hworld).mpr ⟨entry, heq', hcovers⟩
      exact ⟨instants, hinstants, hformed, grant, hgrant,
        ⟨hcontributes.eligible, c, hc, hmatch⟩, hcontributes.budget⟩
  · intro grants' hperm
    obtain ⟨entries', heq', hnodup', hmem'⟩ :=
      @reach_computed _ options { authority with grants := grants' } now hstore
    rw [heq']
    refine congrArg _ (sortedListing_eq_of_mem_iff reachOrder_injective hnodup' hnodup ?_)
    intro entry
    rw [hmem', hmem]
    refine exists_congr fun instants => and_congr_right fun _ => exists_congr fun grant => ?_
    exact and_congr_left fun _ => hperm.mem_iff.symm

end Spec

/-! ## An authority to evaluate on -/

namespace Sample

/-- A store in which nothing has been used. -/
def usageStore : GrantUsageStore Id where
  getUsage _ _ := Settled.fulfilled 0
  tryConsume _ _ maximumUses := Settled.fulfilled (Decidable.decide (0 < maximumUses))

/-- An authorizer with a store and a resolver. -/
def authorizer : CapabilityAuthorizerOptions Id where
  usageStore := some usageStore
  grantVerifier := none
  delegationResolver := some port
  maxDelegationChainLength := none
  hostCeiling := none
  onProviderError := none

/-- A direct grant, usable once. -/
def ticket : CapabilityGrant :=
  { leafGrant with
    id := "ticket"
    constraints := { CapabilityConstraints.unbounded with maxUses := some 1 }
    parentGrantId := none }

/-- The authority that holds the derived grant and the ticket. -/
def authority : ResolvedAuthority where
  context := context
  grants := [leafGrant, ticket]
  snapshot :=
    { hash := "", grantIds := ["leaf", "ticket"], grantCount := 2, loadedAt := context.now }
  hostPolicy := none

/-- Reading the one document the worker was given. -/
def reading : CapabilityRequirement where
  resource := { «namespace» := "files", path := ["docs", "a"], owner := none }
  action := "read"

theorem storeAnswers : StoreAnswers authorizer :=
  ⟨usageStore, rfl, fun _ _ => ⟨0, rfl⟩⟩

end Sample

open scoped SharedOS.Foundation.Reference in
theorem reach_agrees_with_authorize_worker :
    ∃ entries, reach Sample.authorizer Sample.authority none = ReachResult.computed entries ∧
      (∀ request : CapabilityRequirement, request.resource.namespace ≠ [] →
        request.action ≠ [] → request.resource.owner = none ∨
          request.resource.owner = some Sample.authority.context.owner →
        (Authorizes Sample.authorizer Sample.authority request none ↔
          ∃ entry ∈ entries, ReachCovers entry request)) ∧
      ∀ grants', Sample.authority.grants.Perm grants' →
        reach Sample.authorizer { Sample.authority with grants := grants' } none =
          ReachResult.computed entries :=
  reach_agrees_with_authorize rfl Sample.storeAnswers

end SharedOS.Core
