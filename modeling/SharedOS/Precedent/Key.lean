/-
SharedOS.Precedent.Key — the key a precedent is filed under, and its digest.

A key says which question was asked. Its digest is taken over a normal form in which the order
and the repetition of what was declared do not count. `SameQuestion` is what the normal form keeps,
and two keys with one canonical text ask the same question (`sameQuestion_of_text`), whatever the
collation of the host.

A capability is normalised by filling in the owner that an absent one stands for, and by listing its
actions once each and sorted. The capabilities are then listed once each, sorted by the collation of
their canonical texts (`dedupeSorted`).

The digest is a hash of a text, and a hash is a function and no more. So what is shown goes one way
for the text: it determines the question. The other way, that one question has one text, is
`Precedent.KeyDigest`, and there the collation matters.
-/
import SharedOS.Core.CapabilityRequest
import SharedOS.Core.ConstraintMeet
import SharedOS.Core.Reach

namespace SharedOS.Precedent

open SharedOS.Foundation SharedOS.Contracts SharedOS.Core

/-- The shape a precedent is filed under. -/
structure PrecedentKey where
  namespaceId : JsString
  owner : Address
  requester : Address
  purpose : JsString
  capabilities : List Capability

/-- The key of a request. -/
def precedentKey (request : CapabilityRequest) : PrecedentKey where
  namespaceId := request.namespaceId
  owner := request.owner
  requester := request.requester
  purpose := request.purpose
  capabilities := request.capabilities

/-! ## The normal form -/

/-- A capability of a key: its owner resolved, its actions sorted without repetition. -/
structure NormalizedCapability where
  «namespace» : JsString
  path : List JsString
  owner : Address
  actions : List JsString
  scope : Scope
  deriving DecidableEq

/-- A capability without what does not count. -/
def normalizedCapability (owner : Address) (capability : Capability) : NormalizedCapability where
  «namespace» := capability.resource.namespace
  path := capability.resource.path
  owner := capability.resource.owner.getD owner
  actions := sortStrings (distinct capability.actions)
  scope := capability.scope

/-- `normalizedResource`, in JSON. -/
def NormalizedCapability.resource (c : NormalizedCapability) : Json :=
  .obj [("namespace", .str c.namespace), ("path", jsonStrings c.path), ("owner", c.owner.toJson)]

/-- A normalised capability as an object, members in the order of the source. -/
def NormalizedCapability.toJson (c : NormalizedCapability) : Json :=
  .obj [("resource", c.resource), ("actions", jsonStrings c.actions), ("scope", c.scope.toJson)]

/-- `PRECEDENT_KEY_VERSION`. -/
def precedentKeyVersion : JsString := "1"

/-- Two keys that ask the same question: whose answer, who asks, for what, and which
capabilities. -/
structure SameQuestion (k k' : PrecedentKey) : Prop where
  namespaceId : k.namespaceId = k'.namespaceId
  owner : k.owner = k'.owner
  requester : k.requester = k'.requester
  purpose : k.purpose = k'.purpose
  capabilities : ∀ c, c ∈ k.capabilities.map (normalizedCapability k.owner) ↔
    c ∈ k'.capabilities.map (normalizedCapability k'.owner)

section Digest

variable [HostPlatform]

/-- `byForm.set(canonicalJson(value), value)`. -/
def setByForm (byForm : List (JsString × Json)) (value : Json) : List (JsString × Json) :=
  setByKey Prod.fst byForm (canonicalJson value, value)

/-- Sort and deduplicate by canonical form. -/
def dedupeSorted (values : List Json) : List Json :=
  (Json.sortEntries HostPlatform.localeCompare (values.foldl setByForm [])).map Prod.snd

/-- The capabilities of a key, each once, in the order of their canonical texts. -/
def normalizedCapabilities (key : PrecedentKey) : List Json :=
  dedupeSorted (key.capabilities.map fun c => (normalizedCapability key.owner c).toJson)

/-- What the digest of a key is taken over. -/
def keyMaterial (key : PrecedentKey) : Json :=
  .obj [("version", .str precedentKeyVersion), ("namespaceId", .str key.namespaceId),
    ("owner", key.owner.toJson), ("requester", key.requester.toJson), ("purpose", .str key.purpose),
    ("capabilities", .arr (normalizedCapabilities key))]

/-- The digest a precedent is filed under. -/
def precedentKeyDigest (key : PrecedentKey) : JsString := hashJson (keyMaterial key)

/-! ## What the canonical text determines -/

/-- What every value has under its own form, every entry has. -/
theorem forall_foldl_setByForm {P : JsString × Json → Prop} {values : List Json}
    {byForm : List (JsString × Json)} (h : ∀ e ∈ byForm, P e)
    (hvalues : ∀ v ∈ values, P (canonicalJson v, v)) :
    ∀ e ∈ values.foldl setByForm byForm, P e := by
  induction values generalizing byForm with
  | nil => exact h
  | cons value rest ih =>
      exact ih (forall_setByKey h (hvalues value List.mem_cons_self))
        fun v hv => hvalues v (List.mem_cons_of_mem _ hv)

theorem mem_forms_foldl {values : List Json} {byForm : List (JsString × Json)} {form : JsString} :
    form ∈ (values.foldl setByForm byForm).map Prod.fst ↔
      form ∈ byForm.map Prod.fst ∨ form ∈ values.map canonicalJson := by
  induction values generalizing byForm with
  | nil => simp
  | cons value rest ih =>
      refine ih.trans ?_
      rw [setByForm, mem_keys_setByKey, List.map_cons, List.mem_cons, or_assoc]

/-- The canonical forms that are left are those that were there. -/
theorem mem_forms_dedupeSorted {values : List Json} {form : JsString} :
    form ∈ (dedupeSorted values).map canonicalJson ↔ form ∈ values.map canonicalJson := by
  have hfiled : ∀ e ∈ values.foldl setByForm [], e.1 = canonicalJson e.2 :=
    forall_foldl_setByForm (by simp) fun _ _ => rfl
  have hforms : ((values.foldl setByForm []).map Prod.snd).map canonicalJson =
      (values.foldl setByForm []).map Prod.fst := by
    rw [List.map_map]
    exact List.map_congr_left fun e he => (hfiled e he).symm
  have hperm := ((Json.sortEntries_perm HostPlatform.localeCompare
    (values.foldl setByForm [])).map Prod.snd).map canonicalJson
  rw [dedupeSorted, hperm.mem_iff, hforms, mem_forms_foldl]
  simp

theorem mem_dedupeSorted {values : List Json} {value : Json} (h : value ∈ dedupeSorted values) :
    value ∈ values := by
  obtain ⟨e, he, rfl⟩ := List.mem_map.mp h
  rw [(Json.sortEntries_perm HostPlatform.localeCompare _).mem_iff] at he
  exact forall_foldl_setByForm (P := fun e => e.2 ∈ values) (by simp) (fun _ hv => hv) e he

omit [HostPlatform] in
theorem numberFree_resource (c : NormalizedCapability) : c.resource.NumberFree := by
  refine .obj fun e he => ?_
  simp only [List.mem_cons, List.not_mem_nil, or_false] at he
  rcases he with rfl | rfl | rfl
  · exact .str _
  · exact numberFree_jsonStrings _
  · exact numberFree_address _

omit [HostPlatform] in
theorem numberFree_normalized (c : NormalizedCapability) : c.toJson.NumberFree := by
  refine .obj fun e he => ?_
  simp only [List.mem_cons, List.not_mem_nil, or_false] at he
  rcases he with rfl | rfl | rfl
  · exact numberFree_resource c
  · exact numberFree_jsonStrings _
  · exact numberFree_scope _

/-- The canonical form of a capability's normal form determines it. -/
theorem normalized_injective {c c' : NormalizedCapability}
    (h : canonicalJson c.toJson = canonicalJson c'.toJson) : c = c' := by
  have hkeys : ((["resource", "actions", "scope"] : List JsString)).Nodup := by decide
  have hfield : ∀ {k v w}, (k, v) ∈ _ → (k, w) ∈ _ → canonicalJson v = canonicalJson w :=
    canonicalJson_field (numberFree_normalized c) (numberFree_normalized c') hkeys h
  have hresource : canonicalJson c.resource = canonicalJson c'.resource :=
    @hfield "resource" c.resource c'.resource (by simp) (by simp)
  have hactions := canonicalJson_jsonStrings_inj
    (@hfield "actions" (jsonStrings c.actions) (jsonStrings c'.actions) (by simp) (by simp))
  have hscope := canonicalJson_scope_inj
    (@hfield "scope" c.scope.toJson c'.scope.toJson (by simp) (by simp))
  have hnames : ((["namespace", "path", "owner"] : List JsString)).Nodup := by decide
  have hinner : ∀ {k v w}, (k, v) ∈ _ → (k, w) ∈ _ → canonicalJson v = canonicalJson w :=
    canonicalJson_field (numberFree_resource c) (numberFree_resource c') hnames hresource
  have hns := canonicalJson_str_inj
    (@hinner "namespace" (.str c.namespace) (.str c'.namespace) (by simp) (by simp))
  have hpath := canonicalJson_jsonStrings_inj
    (@hinner "path" (jsonStrings c.path) (jsonStrings c'.path) (by simp) (by simp))
  have howner := canonicalJson_address_inj
    (@hinner "owner" c.owner.toJson c'.owner.toJson (by simp) (by simp))
  cases c
  cases c'
  dsimp only at hns hpath howner hactions hscope
  rw [hns, hpath, howner, hactions, hscope]

theorem numberFree_normalizedCapabilities (key : PrecedentKey) :
    ∀ v ∈ normalizedCapabilities key, v.NumberFree := by
  intro v hv
  obtain ⟨c, _, rfl⟩ := List.mem_map.mp (mem_dedupeSorted hv)
  exact numberFree_normalized _

theorem numberFree_keyMaterial (key : PrecedentKey) : (keyMaterial key).NumberFree := by
  refine .obj fun e he => ?_
  simp only [List.mem_cons, List.not_mem_nil, or_false] at he
  rcases he with rfl | rfl | rfl | rfl | rfl | rfl
  · exact .str _
  · exact .str _
  · exact numberFree_address _
  · exact numberFree_address _
  · exact .str _
  · exact .arr (numberFree_normalizedCapabilities key)

/-- A capability is asked for in the key when its form is among the forms that are hashed. -/
theorem mem_normalized_iff {key : PrecedentKey} {c : NormalizedCapability} :
    c ∈ key.capabilities.map (normalizedCapability key.owner) ↔
      canonicalJson c.toJson ∈ (normalizedCapabilities key).map canonicalJson := by
  rw [normalizedCapabilities, mem_forms_dedupeSorted]
  simp only [List.mem_map, exists_exists_and_eq_and]
  constructor
  · rintro ⟨capability, hmem, rfl⟩
    exact ⟨capability, hmem, rfl⟩
  · rintro ⟨capability, hmem, hform⟩
    exact ⟨capability, hmem, normalized_injective hform⟩

/-- The canonical form of an array determines those of its items. -/
theorem canonicalJson_arr_inj {xs ys : List Json} (hxs : ∀ v ∈ xs, v.NumberFree)
    (hys : ∀ v ∈ ys, v.NumberFree) (h : canonicalJson (.arr xs) = canonicalJson (.arr ys)) :
    xs.map canonicalJson = ys.map canonicalJson := by
  have hsorted := sortKeys_eq_of_canonicalJson (.arr hxs) (.arr hys) h
  rw [Json.sortKeys, Json.sortKeys, Json.sortKeysItems_eq_map, Json.sortKeysItems_eq_map] at hsorted
  have htexts : ∀ items : List Json, items.map canonicalJson =
      (items.map (Json.sortKeys HostPlatform.localeCompare)).map
        (Json.stringify HostPlatform.numberToString) := by
    intro items
    rw [List.map_map]
    exact List.map_congr_left fun v _ => canonicalJson_eq_stringify v
  rw [htexts, htexts, Json.arr.inj hsorted]

/-- **One canonical text, one question.** -/
theorem sameQuestion_of_text {k k' : PrecedentKey}
    (h : canonicalJson (keyMaterial k) = canonicalJson (keyMaterial k')) : SameQuestion k k' := by
  have hkeys : ((["version", "namespaceId", "owner", "requester", "purpose", "capabilities"] :
      List JsString)).Nodup := by decide
  have hfield : ∀ {key v w}, (key, v) ∈ _ → (key, w) ∈ _ → canonicalJson v = canonicalJson w :=
    canonicalJson_field (numberFree_keyMaterial k) (numberFree_keyMaterial k') hkeys h
  have hitems := canonicalJson_arr_inj
    (fun v hv => numberFree_normalizedCapabilities k v hv)
    (fun v hv => numberFree_normalizedCapabilities k' v hv)
    (@hfield "capabilities" (.arr (normalizedCapabilities k)) (.arr (normalizedCapabilities k'))
      (by simp) (by simp))
  refine ⟨?_, ?_, ?_, ?_, fun c => ?_⟩
  · exact canonicalJson_str_inj
      (@hfield "namespaceId" (.str k.namespaceId) (.str k'.namespaceId) (by simp) (by simp))
  · exact canonicalJson_address_inj
      (@hfield "owner" k.owner.toJson k'.owner.toJson (by simp) (by simp))
  · exact canonicalJson_address_inj
      (@hfield "requester" k.requester.toJson k'.requester.toJson (by simp) (by simp))
  · exact canonicalJson_str_inj
      (@hfield "purpose" (.str k.purpose) (.str k'.purpose) (by simp) (by simp))
  · rw [mem_normalized_iff, mem_normalized_iff, hitems]

end Digest

end SharedOS.Precedent
