/-
SharedOS.Core.Loading — what the trusted boundary accepts.

`resolveAuthority` refuses what it is given whole at the first defect, so an authority it resolves
holds the parse of every candidate, in order, each one the context's own (`resolved_iff`).
-/
import SharedOS.Contracts.Parsed
import SharedOS.Core.Authority

namespace SharedOS.Core

open SharedOS.Foundation SharedOS.Contracts

variable [HostPlatform]

/-- The candidate parses to this grant, and the grant is the context's own. -/
structure Accepted (context : AccessContext) (candidate : Option CapabilityGrant)
    (grant : CapabilityGrant) : Prop where
  parsed : candidate.bind capabilityGrantSchema = some grant
  own : grantScopeMismatch grant context = none

/-- **The loop accepts exactly when every candidate does.** -/
theorem acceptGrants_ok_iff {context : AccessContext} {candidates : List (Option CapabilityGrant)}
    {grants : List CapabilityGrant} :
    acceptGrants context candidates = .ok grants ↔
      List.Forall₂ (Accepted context) candidates grants := by
  induction candidates generalizing grants with
  | nil =>
      rw [List.forall₂_nil_left_iff]
      show Except.ok [] = Except.ok grants ↔ _
      rw [Except.ok.injEq, eq_comm]
  | cons candidate rest ih =>
      rw [List.forall₂_cons_left_iff]
      constructor
      · intro h
        unfold acceptGrants at h
        split at h
        · cases h
        · next grant hparsed =>
            split at h
            · cases h
            · next hown =>
                -- the rest of the loop has to accept as well
                cases hrest : acceptGrants context rest with
                | error e =>
                    rw [hrest] at h
                    cases h
                | ok others =>
                    rw [hrest] at h
                    cases h
                    exact ⟨grant, others, ⟨hparsed, hown⟩, ih.mp hrest, rfl⟩
      · rintro ⟨grant, others, hgrant, hothers, rfl⟩
        unfold acceptGrants
        rw [hgrant.parsed]
        dsimp only
        rw [hgrant.own, ih.mpr hothers]
        rfl

theorem accepted_of_mem {context : AccessContext} {candidates : List (Option CapabilityGrant)}
    {grants : List CapabilityGrant} (h : List.Forall₂ (Accepted context) candidates grants)
    {grant : CapabilityGrant} (hgrant : grant ∈ grants) :
    ∃ candidate, Accepted context candidate grant := by
  induction h with
  | nil => exact absurd hgrant List.not_mem_nil
  | cons haccepted _ ih =>
      rcases List.mem_cons.mp hgrant with rfl | hrest
      · exact ⟨_, haccepted⟩
      · exact ih hrest

/-- The authority over accepted grants. -/
def authorityOver (context : AccessContext) (grants : List CapabilityGrant) : ResolvedAuthority where
  context := context
  grants := grants
  snapshot := takeSnapshot grants context.now
  hostPolicy := none

/-- **What is resolved**: as many candidates as are evaluated at most, each accepted. -/
theorem resolved_iff {context : AccessContext} {loaded : Settled LoadedGrants}
    {authority : ResolvedAuthority} :
    resolveAuthority context loaded = .resolved authority ↔
      ∃ candidates grants, loaded = .fulfilled (.array candidates) ∧
        candidates.length ≤ maxResolvedGrants ∧
        List.Forall₂ (Accepted context) candidates grants ∧
        authority = authorityOver context grants := by
  constructor
  · intro h
    match loaded with
    | .rejected => cases h
    | .fulfilled .notAnArray => cases h
    | .fulfilled (.array candidates) =>
        change (if maxResolvedGrants < candidates.length then _ else _) = _ at h
        split at h
        · cases h
        · next hlength =>
            split at h
            · cases h
            · next grants hgrants =>
                cases h
                exact ⟨candidates, grants, rfl, Nat.not_lt.mp hlength,
                  acceptGrants_ok_iff.mp hgrants, rfl⟩
  · rintro ⟨candidates, grants, rfl, hlength, hgrants, rfl⟩
    show (if maxResolvedGrants < candidates.length then _ else _) = _
    rw [if_neg (Nat.not_lt.mpr hlength), acceptGrants_ok_iff.mpr hgrants]
    rfl

/-- What every consumer of a resolved authority may rely on. -/
structure WellLoaded (authority : ResolvedAuthority) : Prop where
  few : authority.grants.length ≤ maxResolvedGrants
  kept : ∀ grant ∈ authority.grants, GrantKept grant

/-- **A resolved authority is well loaded.** -/
theorem wellLoaded_of_resolved {context : AccessContext} {loaded : Settled LoadedGrants}
    {authority : ResolvedAuthority} (h : resolveAuthority context loaded = .resolved authority) :
    WellLoaded authority := by
  obtain ⟨candidates, grants, -, hlength, hgrants, rfl⟩ := resolved_iff.mp h
  refine ⟨?_, ?_⟩
  · show grants.length ≤ maxResolvedGrants
    rw [← hgrants.length_eq]
    exact hlength
  · intro grant hgrant
    obtain ⟨candidate, haccepted⟩ := accepted_of_mem hgrants hgrant
    obtain ⟨g, -, hg⟩ := Option.bind_eq_some_iff.mp haccepted.parsed
    exact grantKept_of_parsed hg

/-! ## One grant -/

/-- The trusted boundary establishes the grant for this context. -/
def Loads (context : AccessContext) (grant : CapabilityGrant) : Prop :=
  ∃ authority, resolveAuthority context (.fulfilled (.array [some grant])) = .resolved authority

theorem loads_iff {context : AccessContext} {grant : CapabilityGrant} :
    Loads context grant ↔
      ∃ parsed, capabilityGrantSchema grant = some parsed ∧
        grantScopeMismatch parsed context = none := by
  constructor
  · rintro ⟨authority, h⟩
    obtain ⟨candidates, grants, heq, -, hgrants, -⟩ := resolved_iff.mp h
    cases heq
    obtain ⟨parsed, -, haccepted, -⟩ := List.forall₂_cons_left_iff.mp hgrants
    exact ⟨parsed, haccepted.parsed, haccepted.own⟩
  · rintro ⟨parsed, hparsed, hown⟩
    refine ⟨authorityOver context [parsed], resolved_iff.mpr ⟨_, [parsed], rfl, ?_, ?_, rfl⟩⟩
    · show 1 ≤ 256
      omega
    · exact .cons ⟨hparsed, hown⟩ .nil

/-- A grant with other capabilities: the rest of its parse is the same. -/
theorem capabilityGrantSchema_capabilities {grant parsed : CapabilityGrant}
    (h : capabilityGrantSchema grant = some parsed) (capabilities : List Capability) :
    capabilityGrantSchema { grant with capabilities } =
      (arraySchema capabilitySchema 1 64 capabilities).map fun capabilities =>
        { parsed with capabilities } := by
  unfold capabilityGrantSchema at h ⊢
  simp only [Option.bind_eq_bind, Option.bind_eq_some_iff] at h
  obtain ⟨id, hid, ns, hns, subject, hsubject, issuer, hissuer, _, -, constraints, hconstraints,
    issuedAt, hissuedAt, revokedAt, hrevokedAt, parent, hparent, metadata, hmetadata, h⟩ := h
  split at h
  · cases h
  · next hself =>
      cases h
      dsimp only
      rw [hid, hns, hsubject, hissuer, hconstraints, hissuedAt, hrevokedAt, hparent, hmetadata]
      cases arraySchema capabilitySchema 1 64 capabilities with
      | none => rfl
      | some capabilities => exact if_neg hself

/-- **A grant that loads, loads with one other capability** exactly when that is accepted. -/
theorem loads_capability_iff {context : AccessContext} {grant : CapabilityGrant}
    (h : Loads context grant) (c : Capability) :
    Loads context { grant with capabilities := [c] } ↔ (capabilitySchema c).isSome := by
  obtain ⟨parsed, hparsed, hscope⟩ := loads_iff.mp h
  rw [loads_iff, capabilityGrantSchema_capabilities hparsed]
  constructor
  · rintro ⟨g, hg, -⟩
    obtain ⟨cs, hcs, -⟩ := Option.map_eq_some_iff.mp hg
    have hsome := arraySchema_isSome_iff.mp (Option.isSome_iff_exists.mpr ⟨cs, hcs⟩)
    exact hsome.2 c List.mem_cons_self
  · intro hc
    have hsome : (arraySchema capabilitySchema 1 64 [c]).isSome :=
      arraySchema_isSome_iff.mpr ⟨by simp, by simpa using hc⟩
    obtain ⟨cs, hcs⟩ := Option.isSome_iff_exists.mp hsome
    refine ⟨{ parsed with capabilities := cs }, ?_, hscope⟩
    rw [hcs]
    rfl

end SharedOS.Core
