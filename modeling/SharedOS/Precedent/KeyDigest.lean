/-
SharedOS.Precedent.KeyDigest — when two keys ask the same question, and when their digests say so.

`SameAsk` is the question itself: whose answer, who asks, for what, and which capabilities, each
by what it names and not by how it is listed. The digest is taken over a list of capabilities
sorted by the collation of their canonical forms. Two forms the collation ties stay in the order
they were declared in, and only there does the order of declaration show
(`digest_identifies_iff`).

A sort is stable, and it is a function of the collation only. Two lists with the same members and no
tie between different ones sort to one list; a list with a tie between two different members keeps
them as they came, and the same members the other way round sort to another list. So one digest for
every order of declaration is the absence of such ties, and the canonical texts of two keys that ask
the same are equal just where their ties were declared in one order.

That equal digests mean equal texts is the hash's to promise, and is a hypothesis where it is used.
-/
import SharedOS.Core.CanonicalForm
import SharedOS.Precedent.Key

namespace SharedOS.Precedent

open SharedOS.Foundation SharedOS.Contracts SharedOS.Core

/-! ## The question -/

/-- One capability of a key, as the key means it: an omitted owner is the key's own, and actions
are a set. -/
structure SameCapability (owner owner' : Address) (c c' : Capability) : Prop where
  «namespace» : c.resource.namespace = c'.resource.namespace
  path : c.resource.path = c'.resource.path
  owner : c.resource.owner.getD owner = c'.resource.owner.getD owner'
  scope : c.scope = c'.scope
  actions : ∀ a, a ∈ c.actions ↔ a ∈ c'.actions

/-- **The same question**: the same parties and purpose, and the same set of capabilities. -/
structure SameAsk (k k' : PrecedentKey) : Prop where
  namespaceId : k.namespaceId = k'.namespaceId
  owner : k.owner = k'.owner
  requester : k.requester = k'.requester
  purpose : k.purpose = k'.purpose
  covered : ∀ c ∈ k.capabilities, ∃ c' ∈ k'.capabilities, SameCapability k.owner k'.owner c c'
  covers : ∀ c' ∈ k'.capabilities, ∃ c ∈ k.capabilities, SameCapability k.owner k'.owner c c'

/-- Sorted without repetition, two lists of actions are one list when they are one set. -/
theorem sortStrings_distinct_eq_iff {xs ys : List JsString} :
    sortStrings (distinct xs) = sortStrings (distinct ys) ↔ ∀ a, a ∈ xs ↔ a ∈ ys := by
  constructor
  · intro h a
    rw [← mem_distinct, ← mem_sortStrings, h, mem_sortStrings, mem_distinct]
  · intro h
    refine sortStrings_eq_of_perm ?_
    refine (List.perm_ext_iff_of_nodup (nodup_distinct xs) (nodup_distinct ys)).mpr ?_
    intro a
    rw [mem_distinct, mem_distinct, h]

theorem normalizedCapability_eq_iff {owner owner' : Address} {c c' : Capability} :
    normalizedCapability owner c = normalizedCapability owner' c' ↔
      SameCapability owner owner' c c' := by
  unfold normalizedCapability
  rw [NormalizedCapability.mk.injEq, sortStrings_distinct_eq_iff]
  constructor
  · rintro ⟨hns, hpath, howner, hactions, hscope⟩
    exact ⟨hns, hpath, howner, hscope, hactions⟩
  · rintro ⟨hns, hpath, howner, hscope, hactions⟩
    exact ⟨hns, hpath, howner, hactions, hscope⟩

/-- The normal form keeps just what the question is. -/
theorem sameQuestion_iff {k k' : PrecedentKey} : SameQuestion k k' ↔ SameAsk k k' := by
  have hmem : ∀ {key : PrecedentKey} {n : NormalizedCapability},
      n ∈ key.capabilities.map (normalizedCapability key.owner) ↔
        ∃ c ∈ key.capabilities, normalizedCapability key.owner c = n := List.mem_map
  constructor
  · intro h
    refine ⟨h.namespaceId, h.owner, h.requester, h.purpose, ?_, ?_⟩
    · intro c hc
      obtain ⟨c', hc', heq⟩ := hmem.mp ((h.capabilities _).mp (hmem.mpr ⟨c, hc, rfl⟩))
      exact ⟨c', hc', normalizedCapability_eq_iff.mp heq.symm⟩
    · intro c' hc'
      obtain ⟨c, hc, heq⟩ := hmem.mp ((h.capabilities _).mpr (hmem.mpr ⟨c', hc', rfl⟩))
      exact ⟨c, hc, normalizedCapability_eq_iff.mp heq⟩
  · intro h
    refine ⟨h.namespaceId, h.owner, h.requester, h.purpose, ?_⟩
    intro n
    rw [hmem, hmem]
    constructor
    · rintro ⟨c, hc, rfl⟩
      obtain ⟨c', hc', hsame⟩ := h.covered c hc
      exact ⟨c', hc', (normalizedCapability_eq_iff.mpr hsame).symm⟩
    · rintro ⟨c', hc', rfl⟩
      obtain ⟨c, hc, hsame⟩ := h.covers c' hc'
      exact ⟨c, hc, normalizedCapability_eq_iff.mpr hsame⟩

section Digest

variable [HostPlatform]

/-! ## The list the digest is taken over -/

/-- The canonical forms of a key's capabilities, each once, in the order they were declared. -/
def declaredForms (key : PrecedentKey) : List JsString :=
  distinct (key.capabilities.map fun c => canonicalJson (normalizedCapability key.owner c).toJson)

/-- The forms that are filed are the forms of the values, each once. -/
theorem keys_foldl_setByForm {values : List Json} {byForm : List (JsString × Json)} :
    (values.foldl setByForm byForm).map Prod.fst =
      (values.map canonicalJson).foldl (setByKey id) (byForm.map Prod.fst) := by
  induction values generalizing byForm with
  | nil => rfl
  | cons value rest ih =>
      rw [List.foldl_cons, ih, List.map_cons, List.foldl_cons, setByForm, keys_setByKey]

/-- **What is hashed**: the forms, each once, in the order of the collation. -/
theorem forms_dedupeSorted (values : List Json) :
    (dedupeSorted values).map canonicalJson = (distinct (values.map canonicalJson)).insertionSort
      fun a b => HostPlatform.localeCompare a b ≤ 0 := by
  have hfiled : ∀ e ∈ values.foldl setByForm [], e.1 = canonicalJson e.2 :=
    forall_foldl_setByForm (by simp) fun _ _ => rfl
  have hsorted : (dedupeSorted values).map canonicalJson =
      (Json.sortEntries HostPlatform.localeCompare (values.foldl setByForm [])).map Prod.fst := by
    rw [dedupeSorted, List.map_map]
    refine List.map_congr_left fun e he => ?_
    rw [(Json.sortEntries_perm HostPlatform.localeCompare _).mem_iff] at he
    exact (hfiled e he).symm
  rw [hsorted, Json.keys_sortEntries, keys_foldl_setByForm]
  rfl

theorem forms_normalizedCapabilities (key : PrecedentKey) :
    (normalizedCapabilities key).map canonicalJson = (declaredForms key).insertionSort
      fun a b => HostPlatform.localeCompare a b ≤ 0 := by
  rw [normalizedCapabilities, forms_dedupeSorted, List.map_map]
  rfl

/-- The text of an object whose fields have the same texts is the same. -/
theorem canonicalJson_obj_congr {es es' : List (JsString × Json)}
    (h : es.map (fun e => (e.1, canonicalJson e.2)) = es'.map fun e => (e.1, canonicalJson e.2)) :
    canonicalJson (.obj es) = canonicalJson (.obj es') := by
  simp only [canonicalJson, canonicalEntries_eq_map, h]

theorem canonicalJson_arr_congr {xs ys : List Json}
    (h : xs.map canonicalJson = ys.map canonicalJson) :
    canonicalJson (.arr xs) = canonicalJson (.arr ys) := by
  simp only [canonicalJson, canonicalItems_eq_map, h]

/-- The same parties, the same purpose and the same sorted forms, the same text. -/
theorem text_eq_of_forms {k k' : PrecedentKey} (hsame : SameAsk k k')
    (hforms : (normalizedCapabilities k).map canonicalJson =
      (normalizedCapabilities k').map canonicalJson) :
    canonicalJson (keyMaterial k) = canonicalJson (keyMaterial k') := by
  refine canonicalJson_obj_congr ?_
  simp only [List.map_cons, List.map_nil, hsame.namespaceId, hsame.owner, hsame.requester,
    hsame.purpose, canonicalJson_arr_congr hforms]

/-- The forms of one question are one set. -/
theorem declaredForms_perm {k k' : PrecedentKey} (h : SameAsk k k') :
    (declaredForms k).Perm (declaredForms k') := by
  refine (List.perm_ext_iff_of_nodup (nodup_distinct _) (nodup_distinct _)).mpr ?_
  intro form
  have hcaps := (sameQuestion_iff.mpr h).capabilities
  simp only [List.mem_map] at hcaps
  simp only [mem_distinct, List.mem_map]
  constructor
  · rintro ⟨c, hc, rfl⟩
    obtain ⟨c', hc', heq⟩ := (hcaps _).mp ⟨c, hc, rfl⟩
    exact ⟨c', hc', by rw [heq]⟩
  · rintro ⟨c', hc', rfl⟩
    obtain ⟨c, hc, heq⟩ := (hcaps _).mpr ⟨c', hc', rfl⟩
    exact ⟨c, hc, by rw [heq]⟩

/-- The canonical text of an array determines those of its items, and that of a key the array. -/
theorem forms_eq_of_text {k k' : PrecedentKey}
    (h : canonicalJson (keyMaterial k) = canonicalJson (keyMaterial k')) :
    (normalizedCapabilities k).map canonicalJson =
      (normalizedCapabilities k').map canonicalJson := by
  have hkeys : ((["version", "namespaceId", "owner", "requester", "purpose", "capabilities"] :
      List JsString)).Nodup := by decide
  exact canonicalJson_arr_inj (numberFree_normalizedCapabilities k)
    (numberFree_normalizedCapabilities k')
    (canonicalJson_field (numberFree_keyMaterial k) (numberFree_keyMaterial k') hkeys h
      (k := "capabilities") (by simp) (by simp))

/-- **One text**: the same question, and no two forms that collate as equal declared in opposite
orders. -/
theorem text_eq_iff (hcollation : ConsistentComparison HostPlatform.localeCompare)
    {k k' : PrecedentKey} : canonicalJson (keyMaterial k) = canonicalJson (keyMaterial k') ↔
      SameAsk k k' ∧
        ¬ SwappedTie HostPlatform.localeCompare (declaredForms k) (declaredForms k') := by
  have hsorts : SameAsk k k' → ((normalizedCapabilities k).map canonicalJson =
      (normalizedCapabilities k').map canonicalJson ↔
        ¬ SwappedTie HostPlatform.localeCompare (declaredForms k) (declaredForms k')) := by
    intro hsame
    rw [forms_normalizedCapabilities, forms_normalizedCapabilities]
    exact insertionSort_eq_iff hcollation (declaredForms_perm hsame) (nodup_distinct _)
  constructor
  · intro h
    have hsame := sameQuestion_iff.mp (sameQuestion_of_text h)
    exact ⟨hsame, (hsorts hsame).mp (forms_eq_of_text h)⟩
  · rintro ⟨hsame, hnone⟩
    exact text_eq_of_forms hsame ((hsorts hsame).mpr hnone)

/-- **Where the digest identifies the question**: at every two keys but those that ask one question
and declare in opposite orders two capabilities whose forms collate as equal. -/
theorem digest_identifies_iff (hcollation : ConsistentComparison HostPlatform.localeCompare)
    {k k' : PrecedentKey} :
    ((canonicalJson (keyMaterial k) = canonicalJson (keyMaterial k') ↔ SameAsk k k') ↔
      ¬ (SameAsk k k' ∧
        SwappedTie HostPlatform.localeCompare (declaredForms k) (declaredForms k'))) ∧
    (SameAsk k k' → ¬ SwappedTie HostPlatform.localeCompare (declaredForms k) (declaredForms k') →
      precedentKeyDigest k = precedentKeyDigest k') := by
  -- one text: the same ask, and no tie declared in opposite orders
  have hiff := @text_eq_iff _ hcollation k k'
  refine ⟨⟨?_, ?_⟩, ?_⟩
  · rintro hidentifies ⟨hsame, hswap⟩
    exact (hiff.mp (hidentifies.mpr hsame)).2 hswap
  · intro hnone
    constructor
    · intro h
      exact (hiff.mp h).1
    · intro hsame
      exact hiff.mpr ⟨hsame, fun hswap => hnone ⟨hsame, hswap⟩⟩
  · intro hsame hnone
    exact congrArg HostPlatform.sha256Hex (hiff.mpr ⟨hsame, hnone⟩)

end Digest

namespace Sample

/-- Reading one document, under either spelling of its name. -/
def reading (segment : JsString) : Capability where
  resource := { «namespace» := "files", path := [segment], owner := none }
  actions := ["read"]
  scope := .exact

/-- Two documents asked for, in this order. -/
def asking (first second : JsString) : PrecedentKey where
  namespaceId := "n"
  owner := .human "owner"
  requester := .agent "agent"
  purpose := "work"
  capabilities := [reading first, reading second]

theorem sameAsk_asking (first second : JsString) :
    SameAsk (asking first second) (asking second first) := by
  refine ⟨rfl, rfl, rfl, rfl, ?_, ?_⟩
  · intro c hc
    refine ⟨c, ?_, rfl, rfl, rfl, rfl, fun _ => Iff.rfl⟩
    exact (List.Perm.swap _ _ _).mem_iff.mp hc
  · intro c hc
    refine ⟨c, ?_, rfl, rfl, rfl, rfl, fun _ => Iff.rfl⟩
    exact (List.Perm.swap _ _ _).mem_iff.mp hc

end Sample

/-- Two spellings of one name, asked for in either order, under a collation that ties them. -/
theorem declaration_order_shows :
    ConsistentComparison Core.Sample.composingPlatform.localeCompare ∧
    SameAsk (Sample.asking Core.Sample.precomposed Core.Sample.decomposed)
      (Sample.asking Core.Sample.decomposed Core.Sample.precomposed) ∧
    @canonicalJson Core.Sample.composingPlatform (@keyMaterial Core.Sample.composingPlatform
        (Sample.asking Core.Sample.precomposed Core.Sample.decomposed)) ≠
      @canonicalJson Core.Sample.composingPlatform (@keyMaterial Core.Sample.composingPlatform
        (Sample.asking Core.Sample.decomposed Core.Sample.precomposed)) :=
  ⟨Core.Sample.consistent_codeUnits.comap Core.Sample.composed, Sample.sameAsk_asking _ _,
    by decide +kernel⟩

open scoped SharedOS.Foundation.Reference in
theorem digest_identifies_iff_asking :
    ((canonicalJson (keyMaterial (Sample.asking "a" "b")) =
        canonicalJson (keyMaterial (Sample.asking "b" "a")) ↔
          SameAsk (Sample.asking "a" "b") (Sample.asking "b" "a")) ↔
      ¬ (SameAsk (Sample.asking "a" "b") (Sample.asking "b" "a") ∧
        SwappedTie HostPlatform.localeCompare (declaredForms (Sample.asking "a" "b"))
          (declaredForms (Sample.asking "b" "a")))) ∧
    (SameAsk (Sample.asking "a" "b") (Sample.asking "b" "a") →
      ¬ SwappedTie HostPlatform.localeCompare (declaredForms (Sample.asking "a" "b"))
        (declaredForms (Sample.asking "b" "a")) →
      precedentKeyDigest (Sample.asking "a" "b") = precedentKeyDigest (Sample.asking "b" "a")) :=
  digest_identifies_iff Core.Sample.consistent_codeUnits

end SharedOS.Precedent
