/-
SharedOS.Core.Authority — loaded authority, its snapshot, and the identity of a turn.

`resolveAuthority` is the trusted boundary: what a grant source answered is parsed grant by grant
and refused whole at the first defect. Two identities are taken from canonical JSON. The snapshot
hash does not depend on the order in which the source returned the grants
(`snapshot_hash_perm`). The turn key determines every field of the context it is built from
(`turnAuthorityKey_inj`), whatever the host's collation.
-/
import SharedOS.Core.Internal

namespace SharedOS.Core

open SharedOS.Foundation SharedOS.Contracts

/-- What a policy source loaded. Nothing reads it but the host's own ceiling. -/
structure HostPolicy where
  handle : Nat
  deriving DecidableEq

/-- The policy one turn decides against, or the fact that it could not be loaded. -/
inductive PolicyResolution where
  | loaded (policy : HostPolicy) (version : JsString)
  | unavailable
  deriving DecidableEq

/-- A content identifier for exactly the authority one decision was made against. -/
structure AuthoritySnapshot where
  hash : JsString
  grantIds : List JsString
  grantCount : Nat
  loadedAt : JsString
  deriving DecidableEq

/-- An access context together with the authority a trusted source produced for it. -/
structure ResolvedAuthority where
  context : AccessContext
  grants : List CapabilityGrant
  snapshot : AuthoritySnapshot
  hostPolicy : Option PolicyResolution

/-- Why authority could not be established. -/
inductive AuthorityUnavailableCode where
  | grantSourceFailed
  | invalidGrantMaterial
  | grantScopeMismatch
  | grantLimitExceeded
  deriving DecidableEq

/-- The word of the code on the wire. -/
def AuthorityUnavailableCode.text : AuthorityUnavailableCode → JsString
  | .grantSourceFailed => "grant_source_failed"
  | .invalidGrantMaterial => "invalid_grant_material"
  | .grantScopeMismatch => "grant_scope_mismatch"
  | .grantLimitExceeded => "grant_limit_exceeded"

/-- Which of the three scope conditions a loaded grant failed. -/
inductive GrantScopeMismatch where
  | namespace
  | subject
  | issuer
  deriving DecidableEq

/-- The word of the mismatch on the wire. -/
def GrantScopeMismatch.text : GrantScopeMismatch → JsString
  | .namespace => "namespace"
  | .subject => "subject"
  | .issuer => "issuer"

/-- Which grant made the authority unavailable, and how. -/
structure AuthorityUnavailableDetail where
  grantId : JsString
  reason : GrantScopeMismatch
  deriving DecidableEq

/-- What a load of the authority came to. -/
inductive AuthorityResolution where
  | resolved (authority : ResolvedAuthority)
  | unavailable (code : AuthorityUnavailableCode) (detail : Option AuthorityUnavailableDetail)

/-- What a grant source answered. A candidate that has not the shape of a grant is absent. -/
inductive LoadedGrants where
  | notAnArray
  | array (candidates : List (Option CapabilityGrant))

/-- The largest authority set evaluated for one decision. -/
def maxResolvedGrants : Nat := 256

section Resolve

variable [HostPlatform]

/-- `grantScopeMismatch`: the first scope of a grant that is not the context's. -/
def grantScopeMismatch (grant : CapabilityGrant) (context : AccessContext) :
    Option GrantScopeMismatch :=
  if grant.namespaceId ≠ context.namespaceId then some .namespace
  else if !addressesEqual grant.subject context.actor then some .subject
  else if !addressesEqual grant.issuer context.authority then some .issuer
  else none

/-- The loop of `resolve` over the candidates. -/
def acceptGrants (context : AccessContext) :
    List (Option CapabilityGrant) →
      Except (AuthorityUnavailableCode × Option AuthorityUnavailableDetail) (List CapabilityGrant)
  | [] => .ok []
  | candidate :: rest =>
    match candidate.bind capabilityGrantSchema with
    | none => .error (.invalidGrantMaterial, none)
    | some grant =>
      match grantScopeMismatch grant context with
      | some reason => .error (.grantScopeMismatch, some { grantId := grant.id, reason })
      | none => (acceptGrants context rest).map (grant :: ·)

/-- `#snapshot`. The digest is memoised by canonical form in the source. -/
def takeSnapshot (grants : List CapabilityGrant) (loadedAt : JsString) : AuthoritySnapshot where
  hash := HostPlatform.sha256Hex (canonicalJson
    (jsonStrings (sortStrings (grants.map fun grant => canonicalJson grant.toJson))))
  grantIds := sortStrings (grants.map CapabilityGrant.id)
  grantCount := grants.length
  loadedAt := loadedAt

/-- `TrustedAuthorityResolver.resolve`, on what the source's promise settled to. -/
def resolveAuthority (context : AccessContext) (loaded : Settled LoadedGrants) :
    AuthorityResolution :=
  match loaded with
  | .rejected => .unavailable .grantSourceFailed none
  | .fulfilled .notAnArray => .unavailable .invalidGrantMaterial none
  | .fulfilled (.array candidates) =>
    if maxResolvedGrants < candidates.length then .unavailable .grantLimitExceeded none
    else
      match acceptGrants context candidates with
      | .error (code, detail) => .unavailable code detail
      | .ok grants =>
        .resolved
          { context, grants, snapshot := takeSnapshot grants context.now, hostPolicy := none }

/-- **The snapshot does not see the order of the grants.** -/
theorem takeSnapshot_perm {grants grants' : List CapabilityGrant} (h : grants.Perm grants')
    (loadedAt : JsString) : takeSnapshot grants loadedAt = takeSnapshot grants' loadedAt := by
  unfold takeSnapshot
  rw [sortStrings_eq_of_perm (h.map fun grant => canonicalJson grant.toJson),
    sortStrings_eq_of_perm (h.map CapabilityGrant.id), h.length_eq]

end Resolve

/-! ## The identity of a turn -/

/-- The fields of a context an authorization decision reads, as the key lists them. -/
def turnAuthorityEntries (context : AccessContext) : List (JsString × Json) :=
  optionalEntry "executionId" (context.executionId.map .str) ++
    ([("namespaceId", .str context.namespaceId), ("actor", context.actor.toJson),
      ("authority", context.authority.toJson), ("owner", context.owner.toJson),
      ("purpose", .str context.purpose), ("traceId", .str context.traceId)] :
      List (JsString × Json))

theorem mem_turnAuthorityEntries {context : AccessContext} {k : JsString} {v : Json} :
    (k, v) ∈ turnAuthorityEntries context ↔
      (k = "executionId" ∧ ∃ id, context.executionId = some id ∧ v = .str id) ∨
      (k = "namespaceId" ∧ v = .str context.namespaceId) ∨
      (k = "actor" ∧ v = context.actor.toJson) ∨
      (k = "authority" ∧ v = context.authority.toJson) ∨
      (k = "owner" ∧ v = context.owner.toJson) ∨
      (k = "purpose" ∧ v = .str context.purpose) ∨
      (k = "traceId" ∧ v = .str context.traceId) := by
  unfold turnAuthorityEntries
  rw [List.mem_append]
  simp only [List.mem_cons, List.not_mem_nil, or_false, Prod.mk.injEq]
  refine or_congr ?_ Iff.rfl
  cases context.executionId with
  | none => simp [optionalEntry]
  | some id => simp [optionalEntry]

/-- Every entry has its own key. -/
theorem turnAuthorityEntries_keys_nodup (context : AccessContext) :
    ((turnAuthorityEntries context).map Prod.fst).Nodup := by
  unfold turnAuthorityEntries
  cases context.executionId with
  | none => exact (by decide : (["namespaceId", "actor", "authority", "owner", "purpose",
      "traceId"] : List JsString).Nodup)
  | some id => exact (by decide : (["executionId", "namespaceId", "actor", "authority", "owner",
      "purpose", "traceId"] : List JsString).Nodup)

theorem numberFree_turnAuthorityEntries (context : AccessContext) :
    (Json.obj (turnAuthorityEntries context)).NumberFree := by
  refine .obj fun ⟨k, v⟩ he => ?_
  rcases mem_turnAuthorityEntries.mp he with ⟨_, id, _, rfl⟩ | ⟨_, rfl⟩ | ⟨_, rfl⟩ | ⟨_, rfl⟩ |
    ⟨_, rfl⟩ | ⟨_, rfl⟩ | ⟨_, rfl⟩
  · exact .str id
  · exact .str _
  · exact numberFree_address _
  · exact numberFree_address _
  · exact numberFree_address _
  · exact .str _
  · exact .str _

section Key

variable [HostPlatform]

/-- The identity a turn's frozen authority is held against. -/
def turnAuthorityKey (context : AccessContext) : JsString :=
  canonicalJson (.obj (turnAuthorityEntries context))

/-- What two contexts with one key agree on. -/
structure SameTurn (a b : AccessContext) : Prop where
  executionId : a.executionId = b.executionId
  namespaceId : a.namespaceId = b.namespaceId
  actor : a.actor = b.actor
  authority : a.authority = b.authority
  owner : a.owner = b.owner
  purpose : a.purpose = b.purpose
  traceId : a.traceId = b.traceId

section

variable {a b : AccessContext} (h : turnAuthorityKey a = turnAuthorityKey b)
include h

/-- One field of two contexts with one key. -/
theorem turnAuthorityKey_field {k : JsString} {v w : Json} (ha : (k, v) ∈ turnAuthorityEntries a)
    (hb : (k, w) ∈ turnAuthorityEntries b) : canonicalJson v = canonicalJson w :=
  canonicalJson_field (numberFree_turnAuthorityEntries a) (numberFree_turnAuthorityEntries b)
    (turnAuthorityEntries_keys_nodup b) h ha hb

theorem turnAuthorityKey_executionId {id : JsString} (ha : a.executionId = some id) :
    b.executionId = some id := by
  obtain ⟨v, hv, heq⟩ := canonicalJson_entry (numberFree_turnAuthorityEntries a)
    (numberFree_turnAuthorityEntries b) h (mem_turnAuthorityEntries.mpr (.inl ⟨rfl, id, ha, rfl⟩))
  rcases mem_turnAuthorityEntries.mp hv with ⟨_, id', hid', rfl⟩ | hv
  · rw [hid', canonicalJson_str_inj heq]
  · exfalso
    revert hv
    rintro (⟨hk, _⟩ | ⟨hk, _⟩ | ⟨hk, _⟩ | ⟨hk, _⟩ | ⟨hk, _⟩ | ⟨hk, _⟩) <;>
      exact absurd hk (by decide)

end

/-- **The key determines the turn**, whatever the host's collation answers. -/
theorem turnAuthorityKey_inj {a b : AccessContext} (h : turnAuthorityKey a = turnAuthorityKey b) :
    SameTurn a b := by
  refine ⟨?_, ?_, ?_, ?_, ?_, ?_, ?_⟩
  · cases ha : a.executionId with
    | some id => exact (turnAuthorityKey_executionId h ha).symm
    | none =>
        cases hb : b.executionId with
        | none => rfl
        | some id =>
            rw [turnAuthorityKey_executionId h.symm hb] at ha
            cases ha
  · exact canonicalJson_str_inj (turnAuthorityKey_field (k := "namespaceId") h
      (mem_turnAuthorityEntries.mpr (by simp)) (mem_turnAuthorityEntries.mpr (by simp)))
  · exact canonicalJson_address_inj (turnAuthorityKey_field (k := "actor") h
      (mem_turnAuthorityEntries.mpr (by simp)) (mem_turnAuthorityEntries.mpr (by simp)))
  · exact canonicalJson_address_inj (turnAuthorityKey_field (k := "authority") h
      (mem_turnAuthorityEntries.mpr (by simp)) (mem_turnAuthorityEntries.mpr (by simp)))
  · exact canonicalJson_address_inj (turnAuthorityKey_field (k := "owner") h
      (mem_turnAuthorityEntries.mpr (by simp)) (mem_turnAuthorityEntries.mpr (by simp)))
  · exact canonicalJson_str_inj (turnAuthorityKey_field (k := "purpose") h
      (mem_turnAuthorityEntries.mpr (by simp)) (mem_turnAuthorityEntries.mpr (by simp)))
  · exact canonicalJson_str_inj (turnAuthorityKey_field (k := "traceId") h
      (mem_turnAuthorityEntries.mpr (by simp)) (mem_turnAuthorityEntries.mpr (by simp)))

end Key

end SharedOS.Core
