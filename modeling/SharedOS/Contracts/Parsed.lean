/-
SharedOS.Contracts.Parsed — what a schema answers, the schema leaves as it is.

A parse trims, drops and rebuilds, and what it answers has nothing left to trim, drop or rebuild. So
a value that came out of one schema passes the same schema on the other side of a wire unchanged.

The wire of this repository has a schema at both ends: a host parses what it answers before it sends
it, and a client parses what it received before it returns it. That the second parse changes nothing
is why a client sees the host's own value (`Http.Client`), and why a grant that was loaded once is
the grant that is evaluated (`Core.Loading`).

Every law here is `Idempotent` of one schema, and is put together along the schema: from the trimmed
texts and the bounded lists up to the records that hold them. The proofs follow the fields in their
order.
-/
import SharedOS.Contracts.Http

namespace SharedOS.Contracts

open SharedOS.Foundation

/-! ## Arrays, segments and addresses -/

theorem arraySchema_idem {α : Type} {schema : α → Option α} {low high : ℕ} {xs ys : List α}
    (hschema : ∀ a b, schema a = some b → schema b = some b)
    (h : arraySchema schema low high xs = some ys) : arraySchema schema low high ys = some ys := by
  obtain ⟨hlow, hhigh, hmem⟩ := of_arraySchema h
  refine arraySchema_eq_self_iff.mpr ⟨⟨hlow, hhigh⟩, fun y hy => ?_⟩
  obtain ⟨x, -, hx⟩ := hmem y hy
  exact hschema x y hx

theorem pathSegmentSchema_idem {s t : JsString} (h : pathSegmentSchema s = some t) :
    pathSegmentSchema t = some t := by
  unfold pathSegmentSchema at h ⊢
  obtain ⟨u, hu, h⟩ := Option.bind_eq_some_iff.mp h
  split at h
  · next hsegment =>
      cases h
      rw [trimmedString_idem hu]
      exact if_pos hsegment
  · cases h

namespace Address

theorem schema_idem {a b : Address} (h : a.schema = some b) : b.schema = some b := by
  cases a <;> obtain ⟨id, hid, rfl⟩ := Option.map_eq_some_iff.mp h <;>
    exact congrArg (Option.map _) (trimmedString_idem hid)

end Address

/-! ## Capabilities -/

theorem resourceRefSchema_idem {r r' : ResourceRef} (h : resourceRefSchema r = some r') :
    resourceRefSchema r' = some r' := by
  unfold resourceRefSchema at h
  simp only [Option.bind_eq_bind, Option.bind_eq_some_iff] at h
  obtain ⟨name, hname, path, hpath, owner, howner, heq⟩ := h
  obtain rfl := Option.some.inj heq
  unfold resourceRefSchema
  dsimp only
  rw [show identifierSchema name = some name from trimmedString_idem hname,
    arraySchema_idem (fun _ _ => pathSegmentSchema_idem) hpath,
    optionalSchema_idem (fun _ _ => Address.schema_idem) howner]
  rfl

theorem capabilitySchema_idem {c c' : Capability} (h : capabilitySchema c = some c') :
    capabilitySchema c' = some c' := by
  unfold capabilitySchema at h
  simp only [Option.bind_eq_bind, Option.bind_eq_some_iff] at h
  obtain ⟨resource, hresource, actions, hactions, heq⟩ := h
  obtain rfl := Option.some.inj heq
  unfold capabilitySchema
  dsimp only
  rw [resourceRefSchema_idem hresource,
    show arraySchema actionSchema 1 64 actions = some actions from
      arraySchema_idem (fun _ _ => trimmedString_idem) hactions]
  rfl

/-! ## Tool namespaces -/

theorem enabledToolNamespacesSchema_idem {names selection : List JsString}
    (h : enabledToolNamespacesSchema names = some selection) :
    enabledToolNamespacesSchema selection = some selection := by
  unfold enabledToolNamespacesSchema at h ⊢
  obtain ⟨parsed, hparsed, h⟩ := Option.bind_eq_some_iff.mp h
  split at h
  · next hnodup =>
      cases h
      rw [show arraySchema identifierSchema 0 256 selection = some selection from
        arraySchema_idem (fun _ _ => trimmedString_idem) hparsed]
      exact if_pos hnodup
  · cases h

/-- A list is a selection when its names are identifiers, distinct and not too many. -/
theorem enabledToolNamespacesSchema_eq_self_iff {names : List JsString} :
    enabledToolNamespacesSchema names = some names ↔
      names.length ≤ 256 ∧ names.Nodup ∧ ∀ name ∈ names, identifierSchema name = some name := by
  unfold enabledToolNamespacesSchema
  constructor
  · intro h
    obtain ⟨parsed, hparsed, h⟩ := Option.bind_eq_some_iff.mp h
    split at h
    · next hnodup =>
        cases h
        obtain ⟨⟨-, hlength⟩, hnames⟩ := arraySchema_eq_self_iff.mp hparsed
        exact ⟨hlength, hnodup, hnames⟩
    · cases h
  · rintro ⟨hlength, hnodup, hnames⟩
    rw [show arraySchema identifierSchema 0 256 names = some names from
      arraySchema_eq_self_iff.mpr ⟨⟨Nat.zero_le _, hlength⟩, hnames⟩]
    exact if_pos hnodup

/-- What an update parses to: two selections with no name in common, not both empty. -/
theorem of_toolNamespaceUpdateSchema {update patch : ToolNamespaceUpdate}
    (h : toolNamespaceUpdateSchema update = some patch) :
    optionalSchema enabledToolNamespacesSchema update.enable = some patch.enable ∧
    optionalSchema enabledToolNamespacesSchema update.disable = some patch.disable ∧
    ((patch.enable.getD []).isEmpty && (patch.disable.getD []).isEmpty) = false ∧
    ∀ name ∈ patch.disable.getD [], name ∉ patch.enable.getD [] := by
  unfold toolNamespaceUpdateSchema at h
  obtain ⟨enable, henable, h⟩ := Option.bind_eq_some_iff.mp h
  obtain ⟨disable, hdisable, h⟩ := Option.bind_eq_some_iff.mp h
  split at h
  · cases h
  · next hsome =>
      split at h
      · cases h
      · next hdisjoint =>
          cases h
          refine ⟨henable, hdisable, by simpa using hsome, fun name hname hin => hdisjoint ?_⟩
          exact List.any_eq_true.mpr ⟨name, hname, decide_eq_true hin⟩

theorem toolNamespaceUpdateSchema_idem {update patch : ToolNamespaceUpdate}
    (h : toolNamespaceUpdateSchema update = some patch) :
    toolNamespaceUpdateSchema patch = some patch := by
  obtain ⟨henable, hdisable, hsome, hdisjoint⟩ := of_toolNamespaceUpdateSchema h
  unfold toolNamespaceUpdateSchema
  rw [optionalSchema_idem (fun _ _ => enabledToolNamespacesSchema_idem) henable,
    optionalSchema_idem (fun _ _ => enabledToolNamespacesSchema_idem) hdisable]
  show (if _ then none else if _ then none else some patch) = _
  rw [if_neg (by rw [hsome]; exact Bool.false_ne_true), if_neg]
  intro hany
  obtain ⟨name, hname, hin⟩ := List.any_eq_true.mp hany
  exact hdisjoint name hname (of_decide_eq_true hin)

section Platform

variable [HostPlatform]

/-- What a parsed grant is read for: who it is and what it permits. -/
structure GrantKept (g : CapabilityGrant) : Prop where
  id : identifierSchema g.id = some g.id
  capabilities : arraySchema capabilitySchema 1 64 g.capabilities = some g.capabilities

/-- **The identifier and the capabilities of a parsed grant are their own parse.** -/
theorem grantKept_of_parsed {g g' : CapabilityGrant} (h : capabilityGrantSchema g = some g') :
    GrantKept g' := by
  unfold capabilityGrantSchema at h
  simp only [Option.bind_eq_bind, Option.bind_eq_some_iff] at h
  obtain ⟨id, hid, _, -, _, -, _, -, capabilities, hcapabilities, _, -, _, -, _, -, parent, -, _, -,
    hself⟩ := h
  split at hself
  · cases hself
  · cases hself
    exact ⟨trimmedString_idem hid, arraySchema_idem (fun _ _ => capabilitySchema_idem) hcapabilities⟩

/-! ## Contexts and results -/

/-- The instant of a parsed context is a timestamp. -/
theorem accessContextSchema_now {c c' : AccessContext} (h : accessContextSchema c = some c') :
    timestampSchema c'.now = some c'.now := by
  unfold accessContextSchema at h
  simp only [Option.bind_eq_bind, Option.bind_eq_some_iff] at h
  obtain ⟨_, -, _, -, _, -, _, -, _, -, _, -, _, -, _, -, now, hnow, heq⟩ := h
  obtain rfl := Option.some.inj heq
  exact timestampSchema_idem hnow

end Platform

end SharedOS.Contracts
