/-
SharedOS.Core.DelegationChain — what an accepted chain guarantees, and what gets accepted.

The walk is characterised once (`validates_iff`): an accepted chain is an `Ancestry` of sound
links with distinct identifiers and bounded length. Both directions are used. Reading it forward
gives attenuation along the whole chain: no grant outreaches any of its ancestors on any axis.
Reading it backward gives agreement with the issuing side: what `deriveGrant` emits is accepted
wherever its parent is.
-/
import SharedOS.Core.Delegation

namespace SharedOS.Core

open SharedOS.Foundation SharedOS.Contracts

section Chain

variable [HostPlatform]

/-! ## One sound link -/

/-- What a link with no violation establishes. -/
structure SoundLink (child parent : CapabilityGrant) (context : AccessContext)
    (instants : GrantInstants) : Prop where
  sameNamespace : parent.namespaceId = child.namespaceId
  issuedBySubject : parent.subject = child.issuer
  active : Active parent context.purpose instants
  budget : ∃ depth, parent.constraints.delegationDepth = some depth ∧ 1 ≤ depth ∧
    child.constraints.delegationDepth.getD 0 ≤ depth - 1
  unbounded : parent.constraints.maxUses = none
  covered : ∀ c ∈ child.capabilities, ∃ a ∈ parent.capabilities,
    capabilityIsWithin c a context.owner = true
  issuedAfter : ∃ t t', HostPlatform.dateParse child.issuedAt = some t ∧
    HostPlatform.dateParse parent.issuedAt = some t' ∧ t' ≤ t
  envelope : EnvelopeWithin (withIssueStart child) parent.constraints

theorem constraintsAreAttenuated_iff {child parent : CapabilityGrant} :
    constraintsAreAttenuated child parent = true ↔
      (∃ t t', HostPlatform.dateParse child.issuedAt = some t ∧
        HostPlatform.dateParse parent.issuedAt = some t' ∧ t' ≤ t) ∧
      EnvelopeWithin (withIssueStart child) parent.constraints := by
  rw [← constraintsAreWithin_iff]
  unfold constraintsAreAttenuated
  simp only [parseTimestamp_some]
  cases hc : HostPlatform.dateParse child.issuedAt with
  | none => simp
  | some t =>
      cases hp : HostPlatform.dateParse parent.issuedAt with
      | none => simp
      | some t' =>
          dsimp only
          split_ifs with hlt
          · refine iff_of_false (by simp) ?_
            rintro ⟨⟨a, b, ha, hb, hle⟩, _⟩
            cases ha
            cases hb
            omega
          · exact ⟨fun h => ⟨⟨t, t', rfl, rfl, by omega⟩, h⟩, fun h => h.2⟩

/-- **No violation means a sound link.** -/
theorem linkViolation_eq_none_iff {child parent : CapabilityGrant} {context : AccessContext}
    {instants : GrantInstants} :
    linkViolation child parent context instants = none ↔
      SoundLink child parent context instants := by
  unfold linkViolation
  constructor
  · intro h
    cases hdepth : parent.constraints.delegationDepth with
    | none =>
        rw [hdepth] at h
        split_ifs at h
    | some depth =>
        rw [hdepth] at h
        dsimp only at h
        split_ifs at h with hns hiss hact hlow hexceeds huses hcov hatt
        obtain ⟨hissued, henv⟩ := constraintsAreAttenuated_iff.mp hatt
        refine ⟨not_not.mp hns, addressesEqual_iff.mp (by simpa using hiss),
          grantIsActive_iff.mp (by simpa using hact), ⟨depth, hdepth, by omega, by omega⟩,
          by simpa using huses, ?_, hissued, henv⟩
        simpa using hcov
  · intro h
    obtain ⟨depth, hdepth, hpos, hle⟩ := h.budget
    have hcov : (child.capabilities.all fun c => parent.capabilities.any fun a =>
        capabilityIsWithin c a context.owner) = true := by simpa using h.covered
    have hissuer := addressesEqual_iff.mpr h.issuedBySubject
    have hactive := grantIsActive_iff.mpr h.active
    have hatt := constraintsAreAttenuated_iff.mpr ⟨h.issuedAfter, h.envelope⟩
    have hlow : ¬ depth < 1 := by omega
    have hexceeds : ¬ child.constraints.delegationDepth.getD 0 > depth - 1 := by omega
    simp only [h.sameNamespace, hissuer, hactive, hdepth, hlow, hexceeds, h.unbounded, hcov,
      hatt, ne_eq, not_true_eq_false, Bool.not_true, Bool.false_eq_true, Option.isSome_none,
      if_false, if_true]

/-! ## Whole chains -/

/-- `ps` are the ancestors the resolver leads through, from `grant`'s parent up to a root, every
link of them sound. -/
inductive Ancestry (resolver : Option (DelegationChainResolver Id)) (context : AccessContext)
    (instants : GrantInstants) : CapabilityGrant → List CapabilityGrant → Prop
  | root {grant : CapabilityGrant} :
      grant.parentGrantId = none → Ancestry resolver context instants grant []
  | link {child parent : CapabilityGrant} {parentGrantId : JsString}
      {port : DelegationChainResolver Id} {ps : List CapabilityGrant} :
      child.parentGrantId = some parentGrantId → resolver = some port →
      port.resolve child.namespaceId parentGrantId = Settled.fulfilled (some parent) →
      SoundLink child parent context instants → Ancestry resolver context instants parent ps →
      Ancestry resolver context instants child (parent :: ps)

section Walk

variable {resolver : Option (DelegationChainResolver Id)} {context : AccessContext}
  {instants : GrantInstants}

theorem walkParents_root {remaining : Nat} {child : CapabilityGrant} {seen chain : List JsString}
    (hroot : child.parentGrantId = none) :
    walkParents resolver context instants remaining child seen chain =
      DelegationValidation.valid chain := by
  unfold walkParents
  rw [hroot]
  rfl

/-- A walk that ends valid past a parent link resolved it, found it new and found it sound. -/
theorem walkParents_parent {remaining : Nat} {child : CapabilityGrant}
    {seen chain out : List JsString} {parentGrantId : JsString}
    (hparent : child.parentGrantId = some parentGrantId) :
    walkParents resolver context instants remaining child seen chain =
        DelegationValidation.valid out ↔
      ∃ port fewer parent, resolver = some port ∧ remaining = fewer + 1 ∧
        port.resolve child.namespaceId parentGrantId = Settled.fulfilled (some parent) ∧
        parent.id ∉ seen ∧ SoundLink child parent context instants ∧
        walkParents resolver context instants fewer parent (parent.id :: seen)
          (chain ++ [parent.id]) = DelegationValidation.valid out := by
  constructor
  · intro h
    unfold walkParents at h
    rw [hparent] at h
    cases resolver with
    | none => cases h
    | some port =>
        cases remaining with
        | zero => cases h
        | succ fewer =>
            -- the answer, the repeat check and the link check, in the order they are made
            replace h : (match port.resolve child.namespaceId parentGrantId with
                | .rejected => _
                | .fulfilled none => _
                | .fulfilled (some parent) => _) = DelegationValidation.valid out := h
            cases hanswer : port.resolve child.namespaceId parentGrantId with
            | rejected => rw [hanswer] at h; cases h
            | fulfilled answer =>
                cases answer with
                | none => rw [hanswer] at h; cases h
                | some parent =>
                    rw [hanswer] at h
                    dsimp only at h
                    split at h
                    · cases h
                    · next hseen =>
                        split at h
                        · cases h
                        · next hlink =>
                            exact ⟨port, fewer, parent, rfl, rfl, hanswer, by simpa using hseen,
                              linkViolation_eq_none_iff.mp hlink, h⟩
  · rintro ⟨port, fewer, parent, rfl, rfl, hanswer, hseen, hlink, h⟩
    unfold walkParents
    rw [hparent]
    show (match port.resolve child.namespaceId parentGrantId with
      | .rejected => _
      | .fulfilled none => _
      | .fulfilled (some parent) => _) = _
    have hlink := linkViolation_eq_none_iff.mpr hlink
    rw [hanswer]
    dsimp only
    rw [if_neg (by simpa using hseen), hlink]
    exact h

/-- The loop invariant: what is still to come is an ancestry of distinct, unseen grants. -/
theorem walkParents_eq_valid_iff {remaining : Nat} {child : CapabilityGrant}
    {seen chain out : List JsString} :
    walkParents resolver context instants remaining child seen chain =
        DelegationValidation.valid out ↔
      ∃ ps, Ancestry resolver context instants child ps ∧ ps.length ≤ remaining ∧
        (∀ p ∈ ps, p.id ∉ seen) ∧ (ps.map CapabilityGrant.id).Nodup ∧
        out = chain ++ ps.map CapabilityGrant.id := by
  -- on the links left, for every child, every seen set and every chain so far
  induction remaining using Nat.strong_induction_on generalizing child seen chain with
  | _ remaining ih =>
      cases hparent : child.parentGrantId with
      | none =>
          rw [walkParents_root hparent]
          constructor
          · intro h
            cases h
            exact ⟨[], .root hparent, Nat.zero_le _, by simp, by simp, by simp⟩
          · rintro ⟨ps, hps, _, _, _, rfl⟩
            cases hps with
            | root _ => rw [List.map_nil, List.append_nil]
            | link hlink => rw [hparent] at hlink; cases hlink
      | some parentGrantId =>
          rw [walkParents_parent hparent]
          constructor
          · rintro ⟨port, fewer, parent, hport, rfl, hanswer, hseen, hlink, h⟩
            obtain ⟨ps, hps, hlen, hunseen, hnodup, rfl⟩ := (ih fewer (Nat.lt_succ_self _)).mp h
            refine ⟨parent :: ps, .link hparent hport hanswer hlink hps,
              Nat.succ_le_succ hlen, ?_, ?_, ?_⟩
            -- the parent is new here, and whoever is above it is new to the rest of the walk
            · intro p hp
              rcases List.mem_cons.mp hp with rfl | hp
              · exact hseen
              · exact fun hin => hunseen p hp (List.mem_cons_of_mem _ hin)
            · rw [List.map_cons, List.nodup_cons]
              refine ⟨fun hin => ?_, hnodup⟩
              obtain ⟨p, hp, hid⟩ := List.mem_map.mp hin
              exact hunseen p hp (hid ▸ List.mem_cons_self ..)
            · rw [List.map_cons, List.append_assoc, List.singleton_append]
          · rintro ⟨ps, hps, hlen, hunseen, hnodup, rfl⟩
            cases hps with
            | root hroot => rw [hparent] at hroot; cases hroot
            | @link _ parent _ port ps hlink hport hanswer hsound hps =>
                rw [hparent] at hlink
                cases hlink
                obtain ⟨fewer, rfl⟩ : ∃ fewer, remaining = fewer + 1 := by
                  cases remaining with
                  | zero => simp at hlen
                  | succ fewer => exact ⟨fewer, rfl⟩
                rw [List.map_cons, List.nodup_cons] at hnodup
                refine ⟨port, fewer, parent, hport, rfl, hanswer,
                  hunseen parent (List.mem_cons_self ..), hsound, ?_⟩
                refine (ih fewer (Nat.lt_succ_self _)).mpr
                  ⟨ps, hps, Nat.le_of_succ_le_succ hlen, ?_, hnodup.2, ?_⟩
                · intro p hp hin
                  rcases List.mem_cons.mp hin with hid | hin
                  · exact hnodup.1 (hid ▸ List.mem_map_of_mem (f := CapabilityGrant.id) hp)
                  · exact hunseen p (List.mem_cons_of_mem _ hp) hin
                · rw [List.map_cons, List.append_assoc, List.singleton_append]

end Walk

/-- **The chain check, as a statement.** -/
theorem validates_iff {grant : CapabilityGrant} {context : AccessContext} {now : Int}
    {options : DelegationValidationOptions Id} {chain : List JsString} :
    validateDelegationChain grant context now options = DelegationValidation.valid chain ↔
      ∃ ps, Ancestry options.resolver context (options.instants now) grant ps ∧
        ((grant :: ps).map CapabilityGrant.id).Nodup ∧ ps.length ≤ options.chainLimit ∧
        chain = ps.map CapabilityGrant.id := by
  unfold validateDelegationChain
  rw [walkParents_eq_valid_iff]
  constructor
  · rintro ⟨ps, hps, hlen, hunseen, hnodup, rfl⟩
    refine ⟨ps, hps, ?_, hlen, List.nil_append _⟩
    rw [List.map_cons, List.nodup_cons]
    refine ⟨fun hin => ?_, hnodup⟩
    obtain ⟨p, hp, hid⟩ := List.mem_map.mp hin
    exact hunseen p hp (by rw [hid]; exact List.mem_singleton_self _)
  · rintro ⟨ps, hps, hnodup, hlen, rfl⟩
    rw [List.map_cons, List.nodup_cons] at hnodup
    refine ⟨ps, hps, hlen, fun p hp hin => ?_, hnodup.2, (List.nil_append _).symm⟩
    rw [← List.mem_singleton.mp hin] at hnodup
    exact hnodup.1 (List.mem_map_of_mem hp)

/-! ## Attenuation along a chain -/

omit [HostPlatform] in
@[simp] theorem withIssueStart_purposes (child : CapabilityGrant) :
    (withIssueStart child).purposes = child.constraints.purposes := by
  unfold withIssueStart
  split <;> rfl

omit [HostPlatform] in
@[simp] theorem withIssueStart_expiresAt (child : CapabilityGrant) :
    (withIssueStart child).expiresAt = child.constraints.expiresAt := by
  unfold withIssueStart
  split <;> rfl

/-- `grant` reaches no further than `ancestor`, on the axes a chain narrows. The relation is
transitive, which is what carries it along a chain. -/
structure Attenuates (context : AccessContext) (grant ancestor : CapabilityGrant) : Prop where
  /-- Whatever one capability of the grant matches, one capability of the ancestor matches. -/
  matched : ∀ request, (∃ c ∈ grant.capabilities, capabilityMatches c request context = true) →
    ∃ a ∈ ancestor.capabilities, capabilityMatches a request context = true
  /-- Where the ancestor expires, the grant expires no later. -/
  expiry : ∀ s, ancestor.constraints.expiresAt = some s →
    ∃ t, HostPlatform.dateParse s = some t ∧ ∃ s' t', grant.constraints.expiresAt = some s' ∧
      HostPlatform.dateParse s' = some t' ∧ t' ≤ t
  /-- Where the ancestor names purposes, the grant names some of them. -/
  purposes : ∀ allowed, ancestor.constraints.purposes = some allowed →
    ∃ ps, grant.constraints.purposes = some ps ∧ ∀ p ∈ ps, p ∈ allowed

theorem Attenuates.trans {context : AccessContext} {a b c : CapabilityGrant}
    (hab : Attenuates context a b) (hbc : Attenuates context b c) : Attenuates context a c where
  matched request h := hbc.matched request (hab.matched request h)
  expiry s hs := by
    obtain ⟨t, ht, s', t', hs', ht', hle⟩ := hbc.expiry s hs
    obtain ⟨u, hu, s'', t'', hs'', ht'', hle'⟩ := hab.expiry s' hs'
    rw [ht'] at hu
    cases hu
    exact ⟨t, ht, s'', t'', hs'', ht'', hle'.trans hle⟩
  purposes allowed hallowed := by
    obtain ⟨ps, hps, hsub⟩ := hbc.purposes allowed hallowed
    obtain ⟨qs, hqs, hsub'⟩ := hab.purposes ps hps
    exact ⟨qs, hqs, fun q hq => hsub q (hsub' q hq)⟩

/-- A sound link attenuates. Matching goes up by inclusion of permitted accesses. -/
theorem SoundLink.attenuates {child parent : CapabilityGrant} {context : AccessContext}
    {instants : GrantInstants} (h : SoundLink child parent context instants) :
    Attenuates context child parent where
  matched request := by
    rintro ⟨c, hc, hmatch⟩
    obtain ⟨a, ha, hwithin⟩ := h.covered c hc
    have hpermits := permits_subset_of_within hwithin (capabilityMatches_iff.mp hmatch)
    exact ⟨a, ha, capabilityMatches_iff.mpr hpermits⟩
  expiry s hs := by
    have hbound := h.envelope.stops.tightened s hs
    rwa [withIssueStart_expiresAt] at hbound
  purposes allowed hallowed := by
    have hbound := h.envelope.purposes allowed hallowed
    rwa [withIssueStart_purposes] at hbound

section Ancestors

variable {resolver : Option (DelegationChainResolver Id)} {context : AccessContext}
  {instants : GrantInstants} {grant : CapabilityGrant} {ps : List CapabilityGrant}

theorem Ancestry.attenuates (h : Ancestry resolver context instants grant ps) :
    ∀ p ∈ ps, Attenuates context grant p := by
  induction h with
  | root _ => simp
  | link _ _ _ hsound _ ih =>
      intro p hp
      rcases List.mem_cons.mp hp with rfl | hp
      · exact hsound.attenuates
      · exact hsound.attenuates.trans (ih p hp)

/-- Every ancestor of a sound chain is itself active and unbounded. -/
theorem Ancestry.sound (h : Ancestry resolver context instants grant ps) :
    ∀ p ∈ ps, Active p context.purpose instants ∧ p.constraints.maxUses = none := by
  induction h with
  | root _ => simp
  | link _ _ _ hsound _ ih =>
      intro p hp
      rcases List.mem_cons.mp hp with rfl | hp
      · exact ⟨hsound.active, hsound.unbounded⟩
      · exact ih p hp

/-- The budget grows by one at each link, over what the grant itself may still pass on. -/
theorem Ancestry.depth (h : Ancestry resolver context instants grant ps) {i : Nat}
    {p : CapabilityGrant} (hp : ps[i]? = some p) :
    ∃ depth, p.constraints.delegationDepth = some depth ∧ (i : Int) + 1 ≤ depth ∧
      (i : Int) + 1 + grant.constraints.delegationDepth.getD 0 ≤ depth := by
  induction h generalizing i with
  | root _ => simp at hp
  | link _ _ _ hsound _ ih =>
      obtain ⟨depth, hdepth, hpos, hle⟩ := hsound.budget
      cases i with
      | zero =>
          cases hp
          exact ⟨depth, hdepth, by omega, by omega⟩
      | succ i =>
          obtain ⟨depth', hdepth', _, hle'⟩ := ih hp
          rw [hdepth, Option.getD_some] at hle'
          refine ⟨depth', hdepth', ?_, ?_⟩ <;> push_cast <;> omega

end Ancestors

/-! ## A chain to evaluate on -/

namespace Sample

/-- A root grant over the subtree `files/docs`, delegable once. -/
def rootGrant : CapabilityGrant where
  id := "root"
  namespaceId := "ns"
  subject := .agent "lead"
  issuer := .human "owner"
  capabilities :=
    [{ resource := { «namespace» := "files", path := ["docs"], owner := none }
       actions := ["read"]
       scope := .descendants }]
  constraints :=
    { CapabilityConstraints.unbounded with
      delegationDepth := some 1
      expiresAt := some "2027-01-01T00:00:00Z" }
  issuedAt := "2026-01-01T00:00:00Z"
  revokedAt := none
  parentGrantId := none
  metadata := none

/-- One document of that subtree, passed on to a worker. -/
def request : DeriveGrantRequest where
  id := "leaf"
  subject := .agent "worker"
  capabilities :=
    [{ resource := { «namespace» := "files", path := ["docs", "a"], owner := none }
       actions := ["read"]
       scope := .exact }]
  constraints := none
  issuedAt := "2026-02-01T00:00:00Z"
  metadata := none

/-- The grant derived from it. -/
def leafGrant : CapabilityGrant := derivedGrant rootGrant request 1

/-- The context the chain is validated in. -/
def context : AccessContext where
  namespaceId := "ns"
  actor := .agent "worker"
  authority := .agent "lead"
  owner := .human "owner"
  purpose := "work"
  traceId := "trace"
  executionId := none
  enabledToolNamespaces := ["files"]
  now := "2026-03-01T00:00:00Z"

/-- The time value of `context.now`. -/
def now : Int := 1772323200000

/-- A resolver that has the root and nothing else. -/
def port : DelegationChainResolver Id where
  resolve namespaceId grantId :=
    if namespaceId = "ns" ∧ grantId = "root" then Settled.fulfilled (some rootGrant)
    else Settled.fulfilled none

/-- Validation through that resolver, with the default length. -/
def options : DelegationValidationOptions Id where
  resolver := some port
  maxChainLength := none
  admittedAt := none

/-- The grant the owner had it from, delegable twice. -/
def charterGrant : CapabilityGrant :=
  { rootGrant with
    id := "charter"
    subject := .human "owner"
    issuer := .service "platform"
    constraints := { rootGrant.constraints with delegationDepth := some 2 } }

/-- The ancestors of the leaf where the grant above it is itself passed on. -/
def ancestors : DelegationChainResolver Id where
  resolve namespaceId grantId :=
    if namespaceId = "ns" ∧ grantId = "root" then
      Settled.fulfilled (some { rootGrant with parentGrantId := some "charter" })
    else if namespaceId = "ns" ∧ grantId = "charter" then Settled.fulfilled (some charterGrant)
    else Settled.fulfilled none

end Sample

/-- What an accepted chain says of the ancestor `i` links up. -/
structure BoundsDescendant (context : AccessContext) (instants : GrantInstants) (i : Nat)
    (grant ancestor : CapabilityGrant) : Prop where
  attenuates : Attenuates context grant ancestor
  active : grantIsActive ancestor context.purpose instants = true
  unbounded : ancestor.constraints.maxUses = none
  depth : ∃ depth, ancestor.constraints.delegationDepth = some depth ∧ (i : Int) ≤ depth

/-- **An accepted chain attenuates from end to end.** -/
theorem accepted_chain_attenuates {grant : CapabilityGrant} {context : AccessContext} {now : Int}
    {options : DelegationValidationOptions Id} {chain : List JsString}
    (h : validateDelegationChain grant context now options = DelegationValidation.valid chain) :
    ∃ ps, Ancestry options.resolver context (options.instants now) grant ps ∧
      chain = ps.map CapabilityGrant.id ∧ ((grant :: ps).map CapabilityGrant.id).Nodup ∧
      ps.length ≤ options.chainLimit ∧
      ∀ i p, ps[i]? = some p →
        BoundsDescendant context (options.instants now) (i + 1) grant p := by
  obtain ⟨ps, hps, hnodup, hlen, hchain⟩ := validates_iff.mp h
  refine ⟨ps, hps, hchain, hnodup, hlen, fun i p hp => ?_⟩
  have hmem := List.mem_of_getElem? hp
  obtain ⟨hactive, hunbounded⟩ := hps.sound p hmem
  obtain ⟨depth, hdepth, hle, _⟩ := hps.depth hp
  exact ⟨hps.attenuates p hmem, grantIsActive_iff.mpr hactive, hunbounded, depth, hdepth,
    by push_cast; exact hle⟩

end Chain

open scoped SharedOS.Foundation.Reference in
theorem accepted_chain_attenuates_charter :
    ∃ ps, Ancestry (some Sample.ancestors) Sample.context
        (Sample.options.instants Sample.now) Sample.leafGrant ps ∧
      [("root" : JsString), "charter"] = ps.map CapabilityGrant.id ∧
      ((Sample.leafGrant :: ps).map CapabilityGrant.id).Nodup ∧
      ps.length ≤ Sample.options.chainLimit ∧
      ∀ i p, ps[i]? = some p →
        BoundsDescendant Sample.context (Sample.options.instants Sample.now) (i + 1)
          Sample.leafGrant p := by
  have hvalid : validateDelegationChain Sample.leafGrant Sample.context Sample.now
      { Sample.options with resolver := some Sample.ancestors } =
        DelegationValidation.valid ["root", "charter"] := rfl
  exact accepted_chain_attenuates hvalid

/-! ## What is issued is accepted -/

section Issuing

variable [HostPlatform]

/-- What `deriveGrant` has established when it answers. -/
structure Derives (parent : CapabilityGrant) (request : DeriveGrantRequest)
    (derived : CapabilityGrant) : Prop where
  freshId : request.id ≠ parent.id
  unbounded : parent.constraints.maxUses = none
  depth : ∃ depth, parent.constraints.delegationDepth = some depth ∧ 0 < depth ∧
    (∀ asked, request.bounds.delegationDepth = some asked → asked ≤ depth - 1) ∧
    derived = derivedGrant parent request depth
  covered : ∀ c ∈ request.capabilities, ∃ a ∈ parent.capabilities,
    capabilityIsWithinInAnyContext a c = true
  envelope : EnvelopeWithin (inheritedEnvelope parent.constraints request.bounds)
    parent.constraints
  issuedAfter : ∃ t t', HostPlatform.dateParse request.issuedAt = some t ∧
    HostPlatform.dateParse parent.issuedAt = some t' ∧ t' ≤ t

theorem derives_of_deriveGrant {parent derived : CapabilityGrant} {request : DeriveGrantRequest}
    (h : deriveGrant parent request = .ok derived) : Derives parent request derived := by
  unfold deriveGrant at h
  cases hdepth : parent.constraints.delegationDepth with
  | none =>
      rw [hdepth] at h
      split_ifs at h
  | some depth =>
      rw [hdepth] at h
      dsimp only at h
      split_ifs at h with hempty hid huses hpos hasked hcov
      split at h
      · cases h
      · cases h
      · next henvelope =>
          split at h
          · next t t' ht ht' =>
              split_ifs at h with hlt
              cases h
              refine ⟨hid, by simpa using huses, ⟨depth, hdepth, by omega, ?_, rfl⟩,
                by simpa using hcov, constraintEnvelopeViolation_eq_none.mp henvelope,
                ⟨t, t', ht, ht', by omega⟩⟩
              intro asked hask
              rw [hask] at hasked
              simpa using hasked
          · cases h

/-- An omitted start is read as the issue time, and then the parent names no start either. -/
theorem Derives.startWithin {parent derived : CapabilityGrant} {request : DeriveGrantRequest}
    (h : Derives parent request derived) {depth : Int} :
    BoundWithin .start (withIssueStart (derivedGrant parent request depth)).notBefore
      parent.constraints.notBefore := by
  have hstarts := h.envelope.starts
  unfold withIssueStart
  split
  · next hnone =>
      replace hnone : (request.bounds.notBefore <|> parent.constraints.notBefore) = none := hnone
      have hparent : parent.constraints.notBefore = none := by
        cases hb : request.bounds.notBefore with
        | none => rwa [hb] at hnone
        | some s => rw [hb] at hnone; cases hnone
      obtain ⟨t, _, ht, _⟩ := h.issuedAfter
      refine ⟨?_, ?_⟩
      · rintro s hs
        cases hs
        exact ⟨t, ht⟩
      · intro s hs
        rw [hparent] at hs
        cases hs
  · exact hstarts

/-- A derived grant is soundly linked to its parent wherever the parent is active. -/
theorem Derives.soundLink {parent derived : CapabilityGrant} {request : DeriveGrantRequest}
    (h : Derives parent request derived) {context : AccessContext} {instants : GrantInstants}
    (hactive : Active parent context.purpose instants) :
    SoundLink derived parent context instants := by
  obtain ⟨depth, hdepth, hpos, hasked, rfl⟩ := h.depth
  refine ⟨rfl, rfl, hactive, ⟨depth, hdepth, hpos, ?_⟩, h.unbounded, ?_, h.issuedAfter,
    ?_, h.startWithin, ?_⟩
  · show request.bounds.delegationDepth.getD (depth - 1) ≤ depth - 1
    cases hask : request.bounds.delegationDepth with
    | none => exact le_refl _
    | some asked => exact hasked asked hask
  · intro c hc
    obtain ⟨a, ha, hwithin⟩ := h.covered c hc
    exact ⟨a, ha, capabilityIsWithin_of_anyContext hwithin context.owner⟩
  · rw [withIssueStart_purposes]
    exact h.envelope.purposes
  · rw [withIssueStart_expiresAt]
    exact h.envelope.stops

/-- An ancestry survives a change of resolver that still answers for every ancestor. -/
theorem Ancestry.transport {resolver : Option (DelegationChainResolver Id)}
    {context : AccessContext} {instants : GrantInstants} {grant : CapabilityGrant}
    {ps : List CapabilityGrant} {port : DelegationChainResolver Id}
    (h : Ancestry resolver context instants grant ps)
    (hsame : ∀ before namespaceId grantId p, resolver = some before → p ∈ ps →
      before.resolve namespaceId grantId = Settled.fulfilled (some p) →
      port.resolve namespaceId grantId = Settled.fulfilled (some p)) :
    Ancestry (some port) context instants grant ps := by
  induction h with
  | root hroot => exact .root hroot
  | link hparent hport hanswer hsound _ ih =>
      refine .link hparent rfl (hsame _ _ _ _ hport (List.mem_cons_self ..) hanswer) hsound
        (ih fun before namespaceId grantId p hb hp => ?_)
      exact hsame before namespaceId grantId p hb (List.mem_cons_of_mem _ hp)

/-- **Issuing and deciding agree.** -/
theorem derived_grant_accepted {parent derived : CapabilityGrant} {request : DeriveGrantRequest}
    {context : AccessContext} {now : Int} {options : DelegationValidationOptions Id}
    {chain : List JsString} {port : DelegationChainResolver Id}
    (hderive : deriveGrant parent request = .ok derived)
    (hactive : grantIsActive parent context.purpose (options.instants now) = true)
    (hvalid : validateDelegationChain parent context now options =
      DelegationValidation.valid chain)
    (hshort : chain.length < options.chainLimit) (hfresh : request.id ∉ chain)
    (hparent : port.resolve parent.namespaceId parent.id = Settled.fulfilled (some parent))
    (hancestors : ∀ before namespaceId grantId p, options.resolver = some before →
      p.id ∈ chain → before.resolve namespaceId grantId = Settled.fulfilled (some p) →
      port.resolve namespaceId grantId = Settled.fulfilled (some p)) :
    validateDelegationChain derived context now { options with resolver := some port } =
      DelegationValidation.valid (parent.id :: chain) := by
  have hd := derives_of_deriveGrant hderive
  have hsound := hd.soundLink (grantIsActive_iff.mp hactive)
  obtain ⟨depth, _, _, _, hderived⟩ := hd.depth
  have hid : derived.id = request.id := by rw [hderived]; rfl
  obtain ⟨ps, hps, hnodup, _, rfl⟩ := validates_iff.mp hvalid
  rw [List.length_map] at hshort
  have hlink : derived.parentGrantId = some parent.id := by rw [hderived]; rfl
  refine validates_iff.mpr ⟨parent :: ps, ?_, ?_, hshort, rfl⟩
  -- the parent's own ancestry, under the resolver that knows the parent too
  · refine .link hlink rfl ?_ hsound ?_
    · rw [hderived]
      exact hparent
    · exact hps.transport fun before namespaceId grantId p hb hp =>
        hancestors before namespaceId grantId p hb (List.mem_map_of_mem hp)
  · rw [List.map_cons, List.nodup_cons, hid]
    refine ⟨fun hin => ?_, hnodup⟩
    rcases List.mem_cons.mp hin with heq | hin
    · exact hd.freshId heq
    · exact hfresh hin

end Issuing

open scoped SharedOS.Foundation.Reference in
theorem derived_grant_accepted_leaf :
    validateDelegationChain Sample.leafGrant Sample.context Sample.now
        { Sample.options with resolver := some Sample.port } =
      DelegationValidation.valid ["root"] :=
  derived_grant_accepted
    (show deriveGrant Sample.rootGrant Sample.request = .ok Sample.leafGrant by rfl)
    (by decide) (by rfl) (by decide) (by decide) (by rfl)
    (fun _ _ _ _ _ hmem => absurd hmem (List.not_mem_nil))

end SharedOS.Core
