/-
SharedOS.Core.DerivedGrant — when a grant that was issued can be loaded.

`deriveGrant` compares the window it hands on with the parent's, one edge at a time, and the
identifiers as they were given. The schema a grant source is read through compares the two edges
with each other, and the identifiers once trimmed. Everything else the schema asks of a derived
grant follows from what it asks of the parent and of the request (`derivedGrant_parts`), so the two
comparisons the issuer does not make are what decides (`derived_grant_loadable_iff`).
-/
import SharedOS.Core.Authority
import SharedOS.Core.DelegationChain

namespace SharedOS.Core

open SharedOS.Foundation SharedOS.Contracts

section Load

variable [HostPlatform]

/-- The fields of a request, each accepted by its own schema. -/
structure RequestPartsValid (request : DeriveGrantRequest) : Prop where
  id : (identifierSchema request.id).isSome
  subject : request.subject.schema.isSome
  capabilities : (arraySchema capabilitySchema 1 64 request.capabilities).isSome
  constraints : ∀ c, request.constraints = some c → (capabilityConstraintsSchema c).isSome
  issuedAt : (timestampSchema request.issuedAt).isSome
  metadata : ∀ v, request.metadata = some v → (jsonObjectSchema v).isSome

/-- Both edges are stated and readable, and the start is past the end. -/
def Crosses (start stop : Option JsString) : Prop :=
  ∃ t u, parseTimestamp start = some t ∧ parseTimestamp stop = some u ∧ u < t

/-- A request crosses its parent's window when it states one edge, leaves the other to the parent,
and the two are the wrong way round. -/
def CrossesWindow (parent request : CapabilityConstraints) : Prop :=
  (request.expiresAt = none ∧ Crosses request.notBefore parent.expiresAt) ∨
    (request.notBefore = none ∧ Crosses parent.notBefore request.expiresAt)

/-! ## The window that is handed on -/

theorem startsAfterEnd_iff {c : CapabilityConstraints} :
    startsAfterEnd c = true ↔ Crosses c.notBefore c.expiresAt := by
  unfold startsAfterEnd Crosses parseTimestamp
  cases c.notBefore.bind HostPlatform.dateParse <;>
    cases c.expiresAt.bind HostPlatform.dateParse <;> simp

omit [HostPlatform] in
theorem inherited_some {α : Type} {stated inherited : Option α} {a : α} (h : stated = some a) :
    (stated <|> inherited) = stated := by
  rw [h]
  rfl

omit [HostPlatform] in
theorem inherited_none {α : Type} {stated inherited : Option α} (h : stated = none) :
    (stated <|> inherited) = inherited := by
  rw [h]
  rfl

/-- **The inherited window is inverted exactly when the request crosses its parent's.** Two edges
from one side are in order, since each side was accepted. -/
theorem inheritedEnvelope_inverted_iff {parent request : CapabilityConstraints}
    (hparent : startsAfterEnd parent = false) (hrequest : startsAfterEnd request = false) :
    startsAfterEnd (inheritedEnvelope parent request) = true ↔ CrossesWindow parent request := by
  rw [← Bool.not_eq_true, startsAfterEnd_iff] at hparent hrequest
  rw [startsAfterEnd_iff]
  show Crosses (request.notBefore <|> parent.notBefore) (request.expiresAt <|> parent.expiresAt) ↔ _
  unfold CrossesWindow
  cases hstart : request.notBefore with
  | none =>
      rw [inherited_none rfl]
      cases hstop : request.expiresAt with
      | none =>
          rw [inherited_none rfl]
          refine iff_of_false hparent ?_
          rintro (⟨-, t, u, ht, -⟩ | ⟨-, t, u, -, hu, -⟩)
          · cases ht
          · cases hu
      | some stop =>
          rw [inherited_some rfl]
          simp
  | some start =>
      rw [inherited_some rfl]
      cases hstop : request.expiresAt with
      | none =>
          rw [inherited_none rfl]
          simp
      | some stop =>
          rw [inherited_some rfl]
          rw [hstart, hstop] at hrequest
          exact iff_of_false hrequest (by simp)

/-! ## The parts of a derived grant -/

/-- The bounds of a request that is accepted, none where it states no constraints. -/
theorem bounds_valid {request : DeriveGrantRequest} (h : RequestPartsValid request) :
    (capabilityConstraintsSchema request.bounds).isSome := by
  unfold DeriveGrantRequest.bounds
  cases hstated : request.constraints with
  | none => rfl
  | some c => exact h.constraints c hstated

omit [HostPlatform] in
/-- What holds of a stated bound and of an inherited one holds of the bound that is handed on. -/
theorem of_inherited {α : Type} {p : α → Prop} {stated inherited : Option α} {a : α}
    (h : (stated <|> inherited) = some a) (hstated : ∀ a, stated = some a → p a)
    (hinherited : ∀ a, inherited = some a → p a) : p a := by
  cases hs : stated with
  | none =>
      rw [inherited_none hs] at h
      exact hinherited a h
  | some b =>
      rw [inherited_some hs] at h
      exact hstated a h

/-- The bounds of a derived grant are accepted exactly when its window is in order. -/
theorem derivedConstraints_valid_iff {parent derived : CapabilityGrant}
    {request : DeriveGrantRequest} (hparent : (capabilityConstraintsSchema parent.constraints).isSome)
    (hrequest : (capabilityConstraintsSchema request.bounds).isSome)
    (hd : Derives parent request derived) :
    (capabilityConstraintsSchema derived.constraints).isSome ↔
      ¬ CrossesWindow parent.constraints request.bounds := by
  obtain ⟨depth, -, hpos, hasked, rfl⟩ := hd.depth
  rw [capabilityConstraintsSchema_isSome_iff] at hparent hrequest ⊢
  rw [← inheritedEnvelope_inverted_iff hparent.1.window hrequest.1.window, Bool.not_eq_true]
  constructor
  · intro h
    exact h.1.window
  · intro hwindow
    refine ⟨⟨?_, ?_, hrequest.1.uses, ?_, hwindow⟩, ?_⟩
    · intro s hs
      exact of_inherited (p := fun s => HostPlatform.isDatetime s = true) hs hrequest.1.starts
        hparent.1.starts
    · intro s hs
      exact of_inherited (p := fun s => HostPlatform.isDatetime s = true) hs hrequest.1.stops
        hparent.1.stops
    · rintro n ⟨⟩
      -- the depth asked for, or one less than the parent's
      cases hask : request.bounds.delegationDepth with
      | none =>
          show 0 ≤ depth - 1
          omega
      | some asked => exact hrequest.1.depth asked hask
    · intro ps hps
      exact of_inherited (p := fun ps => (arraySchema purposeSchema 1 64 ps).isSome = true) hps
        hrequest.2 hparent.2

/-- The other parts come from the parent or from the request as they are. -/
theorem derivedGrant_parts {parent derived : CapabilityGrant} {request : DeriveGrantRequest}
    (hparent : GrantPartsValid parent) (hrequest : RequestPartsValid request)
    (hd : Derives parent request derived)
    (hconstraints : (capabilityConstraintsSchema derived.constraints).isSome) :
    GrantPartsValid derived := by
  obtain ⟨depth, -, -, -, rfl⟩ := hd.depth
  refine ⟨hrequest.id, hparent.namespaceId, hrequest.subject, hparent.subject,
    hrequest.capabilities, hconstraints, hrequest.issuedAt, ?_, ?_, hrequest.metadata⟩
  · intro t ht
    cases ht
  · rintro p ⟨⟩
    exact hparent.id

/-- What a derived grant names as itself and as its parent. -/
theorem Derives.ids {parent derived : CapabilityGrant} {request : DeriveGrantRequest}
    (hd : Derives parent request derived) :
    derived.id = request.id ∧ derived.parentGrantId = some parent.id := by
  obtain ⟨depth, -, -, -, rfl⟩ := hd.depth
  exact ⟨rfl, rfl⟩

/-! ## Loading -/

/-- One grant the schema refuses, and the whole load is refused. -/
theorem acceptGrants_of_refused {context : AccessContext} {grant : CapabilityGrant}
    (hrefused : capabilityGrantSchema grant = none) {candidates : List (Option CapabilityGrant)}
    (hmem : some grant ∈ candidates) {grants : List CapabilityGrant} :
    acceptGrants context candidates ≠ .ok grants := by
  induction candidates generalizing grants with
  | nil => exact absurd hmem List.not_mem_nil
  | cons candidate rest ih =>
      intro h
      unfold acceptGrants at h
      cases hparse : candidate.bind capabilityGrantSchema with
      | none =>
          rw [hparse] at h
          cases h
      | some parsed =>
          rw [hparse] at h
          dsimp only at h
          cases hscope : grantScopeMismatch parsed context with
          | some reason =>
              rw [hscope] at h
              cases h
          | none =>
              rw [hscope] at h
              rcases List.mem_cons.mp hmem with heq | hrest
              · rw [← heq, Option.bind_some, hrefused] at hparse
                cases hparse
              · cases hloaded : acceptGrants context rest with
                | error e =>
                    rw [hloaded] at h
                    cases h
                | ok loaded => exact ih hrest hloaded

theorem resolveAuthority_of_refused {context : AccessContext} {grant : CapabilityGrant}
    (hrefused : capabilityGrantSchema grant = none) {candidates : List (Option CapabilityGrant)}
    (hmem : some grant ∈ candidates) (authority : ResolvedAuthority) :
    resolveAuthority context (.fulfilled (.array candidates)) ≠ .resolved authority := by
  intro h
  unfold resolveAuthority at h
  dsimp only at h
  split_ifs at h
  split at h
  · cases h
  · next grants hloaded => exact acceptGrants_of_refused hrefused hmem hloaded

/-- **A derived grant is loadable exactly when its identifier differs from its parent's once both
are trimmed and its request does not cross the parent's window.** Any other one makes every load
that holds it fail. -/
theorem derived_grant_loadable_iff {parent derived : CapabilityGrant}
    {request : DeriveGrantRequest} (hparent : (capabilityGrantSchema parent).isSome)
    (hrequest : RequestPartsValid request) (hderive : deriveGrant parent request = .ok derived) :
    ((capabilityGrantSchema derived).isSome ↔
      trim request.id ≠ trim parent.id ∧ ¬ CrossesWindow parent.constraints request.bounds) ∧
    (¬ (trim request.id ≠ trim parent.id ∧ ¬ CrossesWindow parent.constraints request.bounds) →
      ∀ context candidates, some derived ∈ candidates → ∀ authority,
        resolveAuthority context (.fulfilled (.array candidates)) ≠ .resolved authority) := by
  have hd := derives_of_deriveGrant hderive
  obtain ⟨hid, hlink⟩ := hd.ids
  obtain ⟨hparts, -⟩ := capabilityGrantSchema_isSome_iff.mp hparent
  have hconstraints := derivedConstraints_valid_iff hparts.constraints (bounds_valid hrequest) hd
  have hiff : (capabilityGrantSchema derived).isSome ↔
      trim request.id ≠ trim parent.id ∧ ¬ CrossesWindow parent.constraints request.bounds := by
    rw [capabilityGrantSchema_isSome_iff]
    constructor
    · rintro ⟨hvalid, hself⟩
      refine ⟨?_, hconstraints.mp hvalid.constraints⟩
      rw [← hid]
      exact (hself _ hlink).symm
    · rintro ⟨hids, hwindow⟩
      refine ⟨derivedGrant_parts hparts hrequest hd (hconstraints.mpr hwindow), ?_⟩
      rw [hlink, hid]
      rintro p ⟨⟩
      exact hids.symm
  refine ⟨hiff, ?_⟩
  intro hnot context candidates hmem authority
  -- one refused candidate fails the whole load
  have hrefused : capabilityGrantSchema derived = none := by
    rw [← Option.not_isSome_iff_eq_none, hiff]
    exact hnot
  exact resolveAuthority_of_refused hrefused hmem authority

end Load

namespace Sample

/-- The parent's window opens in June, and no end is stated. -/
def juneGrant : CapabilityGrant :=
  { rootGrant with
    constraints :=
      { CapabilityConstraints.unbounded with
        notBefore := some "2026-06-01T00:00:00Z"
        delegationDepth := some 1 } }

/-- A request that ends in March and leaves the start to its parent. -/
def marchRequest : DeriveGrantRequest :=
  { request with
    constraints :=
      some { CapabilityConstraints.unbounded with expiresAt := some "2026-03-01T00:00:00Z" } }

/-- A request for the parent's own identifier, with a blank behind it. -/
def paddedRequest : DeriveGrantRequest := { request with id := "root " }

end Sample

section Samples

open scoped SharedOS.Foundation.Reference

/-- A valid request of a valid parent is answered with a grant the schema refuses. -/
def IssuesRefused (parent : CapabilityGrant) (request : DeriveGrantRequest) : Prop :=
  (capabilityGrantSchema parent).isSome ∧ RequestPartsValid request ∧
    ∃ derived, deriveGrant parent request = .ok derived ∧ (capabilityGrantSchema derived).isNone

theorem Sample.request_valid {asked : DeriveGrantRequest}
    (hid : (identifierSchema asked.id).isSome)
    (hconstraints : (capabilityConstraintsSchema asked.bounds).isSome)
    (hsame : { Sample.request with id := asked.id, constraints := asked.constraints } = asked) :
    RequestPartsValid asked := by
  rw [← hsame] at hid hconstraints ⊢
  have hsubject : Sample.request.subject.schema.isSome := by decide +kernel
  have hcapabilities : (arraySchema capabilitySchema 1 64 Sample.request.capabilities).isSome := by
    decide +kernel
  have hissued : (timestampSchema Sample.request.issuedAt).isSome := by decide +kernel
  refine ⟨hid, hsubject, hcapabilities, ?_, hissued, ?_⟩
  · intro c hc
    unfold DeriveGrantRequest.bounds at hconstraints
    rw [hc] at hconstraints
    exact hconstraints
  · intro v hv
    cases hv

theorem derived_grant_loadable_iff_leaf :
    ((capabilityGrantSchema Sample.leafGrant).isSome ↔
      trim Sample.request.id ≠ trim Sample.rootGrant.id ∧
        ¬ CrossesWindow Sample.rootGrant.constraints Sample.request.bounds) ∧
    (¬ (trim Sample.request.id ≠ trim Sample.rootGrant.id ∧
        ¬ CrossesWindow Sample.rootGrant.constraints Sample.request.bounds) →
      ∀ context candidates, some Sample.leafGrant ∈ candidates → ∀ authority,
        resolveAuthority context (.fulfilled (.array candidates)) ≠ .resolved authority) :=
  derived_grant_loadable_iff (by decide +kernel)
    (Sample.request_valid (by decide +kernel) (by decide +kernel) rfl)
    (show deriveGrant Sample.rootGrant Sample.request = .ok Sample.leafGrant by rfl)

/-- A window that starts in June and ends in March, and a grant that is its own parent once its
identifier is trimmed. -/
theorem derived_grant_refused : IssuesRefused Sample.juneGrant Sample.marchRequest ∧
    IssuesRefused Sample.rootGrant Sample.paddedRequest := by
  refine ⟨⟨by decide +kernel, Sample.request_valid (by decide +kernel) (by decide +kernel) rfl,
    derivedGrant Sample.juneGrant Sample.marchRequest 1, by rfl, by decide +kernel⟩,
    ⟨by decide +kernel, Sample.request_valid (by decide +kernel) (by decide +kernel) rfl,
      derivedGrant Sample.rootGrant Sample.paddedRequest 1, by rfl, by decide +kernel⟩⟩

end Samples

end SharedOS.Core
