/-
SharedOS.Core.Internal — canonical JSON, addresses, paths, timestamps, and when a grant is live.

The helpers every decision is built from. Each has one lemma that says what it decides, and the
modules above use that lemma and never the definition: two addresses are equal when they are the
same address (`addressesEqual_iff`), a path is within another when it extends it
(`pathIsWithin_iff`), a grant is active when four timestamps and a purpose say so
(`grantIsActive_iff`).
-/
import SharedOS.Contracts.Access

namespace SharedOS.Core

open SharedOS.Foundation SharedOS.Contracts

variable [HostPlatform]

/-! ## Canonical JSON -/

mutual

/-- `canonicalJson`. The source sorts the entries and then writes the children. The sort reads
keys only, so the children are written first here, which is the order structural recursion has. -/
def canonicalJson : Json → JsString
  | .arr items => 0x5B :: (commaJoin (canonicalItems items) ++ [0x5D])
  | .obj entries =>
      0x7B :: (commaJoin ((Json.sortEntries HostPlatform.localeCompare
        (canonicalEntries entries)).map Json.entryText) ++ [0x7D])
  | v => Json.stringify HostPlatform.numberToString v

/-- The canonical text of each item, in order. -/
def canonicalItems : List Json → List JsString
  | [] => []
  | v :: rest => canonicalJson v :: canonicalItems rest

/-- The canonical text of each value, under its key. -/
def canonicalEntries : List (JsString × Json) → List (JsString × JsString)
  | [] => []
  | (k, v) :: rest => (k, canonicalJson v) :: canonicalEntries rest

end

theorem canonicalItems_eq_map (items : List Json) :
    canonicalItems items = items.map canonicalJson := by
  induction items with
  | nil => rfl
  | cons v rest ih => simp only [canonicalItems, ih, List.map_cons]

theorem canonicalEntries_eq_map (entries : List (JsString × Json)) :
    canonicalEntries entries = entries.map fun e => (e.1, canonicalJson e.2) := by
  induction entries with
  | nil => rfl
  | cons e rest ih => simp only [canonicalEntries, ih, List.map_cons]

/-- Canonical JSON is `JSON.stringify` of the value with its keys sorted. -/
theorem canonicalJson_eq_stringify (v : Json) :
    canonicalJson v =
      Json.stringify HostPlatform.numberToString (v.sortKeys HostPlatform.localeCompare) := by
  induction v with
  | null => rfl
  | bool b => rfl
  | num x => rfl
  | str s => rfl
  | arr items ih =>
      have hitems : items.map canonicalJson =
          (items.map (Json.sortKeys HostPlatform.localeCompare)).map
            (Json.stringify HostPlatform.numberToString) := by
        rw [List.map_map]
        exact List.map_congr_left ih
      simp only [canonicalJson, canonicalItems_eq_map, Json.sortKeys, Json.sortKeysItems_eq_map,
        Json.stringify, Json.stringifyItems_eq_map, hitems]
  | obj entries ih =>
      have hentries : entries.map (fun e => (e.1, canonicalJson e.2)) =
          (entries.map fun e => (e.1, e.2.sortKeys HostPlatform.localeCompare)).map
            fun e => (e.1, Json.stringify HostPlatform.numberToString e.2) := by
        rw [List.map_map]
        refine List.map_congr_left fun e he => ?_
        rw [ih e he]
        rfl
      simp only [canonicalJson, canonicalEntries_eq_map, Json.sortKeys,
        Json.sortKeysEntries_eq_map, Json.stringify, Json.stringifyEntries_eq_map, hentries]
      rw [Json.sortEntries_map]

/-- Number-free values with one canonical form are equal up to the order of their keys. -/
theorem sortKeys_eq_of_canonicalJson {v w : Json} (hv : v.NumberFree) (hw : w.NumberFree)
    (h : canonicalJson v = canonicalJson w) :
    v.sortKeys HostPlatform.localeCompare = w.sortKeys HostPlatform.localeCompare := by
  rw [canonicalJson_eq_stringify, canonicalJson_eq_stringify] at h
  exact Json.stringify_inj hv.sortKeys hw.sortKeys h

/-- **An entry of an object survives into every object with its canonical form.** -/
theorem canonicalJson_entry {entries entries' : List (JsString × Json)}
    (hv : (Json.obj entries).NumberFree) (hw : (Json.obj entries').NumberFree)
    (h : canonicalJson (.obj entries) = canonicalJson (.obj entries')) {k : JsString} {v : Json}
    (hmem : (k, v) ∈ entries) :
    ∃ v', (k, v') ∈ entries' ∧ canonicalJson v = canonicalJson v' := by
  have hsorted := sortKeys_eq_of_canonicalJson hv hw h
  simp only [Json.sortKeys, Json.sortKeysEntries_eq_map, Json.obj.injEq] at hsorted
  have hin : (k, v.sortKeys HostPlatform.localeCompare) ∈
      entries'.map fun e => (e.1, e.2.sortKeys HostPlatform.localeCompare) := by
    rw [← (Json.sortEntries_perm HostPlatform.localeCompare _).mem_iff, ← hsorted,
      (Json.sortEntries_perm HostPlatform.localeCompare _).mem_iff]
    exact List.mem_map_of_mem (f := fun e => (e.1, e.2.sortKeys HostPlatform.localeCompare)) hmem
  obtain ⟨⟨k', v'⟩, hmem', heq⟩ := List.mem_map.mp hin
  obtain ⟨rfl, hv'⟩ := Prod.mk.inj heq
  refine ⟨v', hmem', ?_⟩
  rw [canonicalJson_eq_stringify, canonicalJson_eq_stringify, hv']

/-- One field of two objects with one canonical form, where no key is repeated. -/
theorem canonicalJson_field {entries entries' : List (JsString × Json)}
    (hv : (Json.obj entries).NumberFree) (hw : (Json.obj entries').NumberFree)
    (hkeys : (entries'.map Prod.fst).Nodup)
    (h : canonicalJson (.obj entries) = canonicalJson (.obj entries')) {k : JsString} {v w : Json}
    (ha : (k, v) ∈ entries) (hb : (k, w) ∈ entries') : canonicalJson v = canonicalJson w := by
  obtain ⟨v', hv', heq⟩ := canonicalJson_entry hv hw h ha
  have hsame := List.inj_on_of_nodup_map hkeys hv' hb rfl
  rw [heq, (Prod.mk.inj hsame).2]

/-- The canonical form of a string determines it. -/
theorem canonicalJson_str_inj {s t : JsString}
    (h : canonicalJson (.str s) = canonicalJson (.str t)) : s = t := by
  have hquote : quote s ++ [] = quote t ++ [] := by
    rw [List.append_nil, List.append_nil]
    exact h
  exact (quote_append_inj hquote).1

omit [HostPlatform] in
theorem numberFree_jsonStrings (xs : List JsString) : (jsonStrings xs).NumberFree := by
  refine .arr fun v hv => ?_
  obtain ⟨s, _, rfl⟩ := List.mem_map.mp hv
  exact .str s

omit [HostPlatform] in
/-- An array of strings has no keys to sort. -/
@[simp] theorem sortKeys_jsonStrings (cmp : JsString → JsString → Int) (xs : List JsString) :
    (jsonStrings xs).sortKeys cmp = jsonStrings xs := by
  unfold jsonStrings
  rw [Json.sortKeys, Json.sortKeysItems_eq_map, List.map_map]
  rfl

omit [HostPlatform] in
theorem jsonStrings_inj {xs ys : List JsString} (h : jsonStrings xs = jsonStrings ys) :
    xs = ys := by
  have hmap := Json.arr.inj h
  exact List.map_injective_iff.mpr (fun _ _ => Json.str.inj) hmap

/-- The canonical form of an array of strings determines it. -/
theorem canonicalJson_jsonStrings_inj {xs ys : List JsString}
    (h : canonicalJson (jsonStrings xs) = canonicalJson (jsonStrings ys)) : xs = ys := by
  have hsorted := sortKeys_eq_of_canonicalJson (numberFree_jsonStrings xs)
    (numberFree_jsonStrings ys) h
  rw [sortKeys_jsonStrings, sortKeys_jsonStrings] at hsorted
  exact jsonStrings_inj hsorted

/-! ## Addresses -/

/-- `addressesEqual`: one canonical text. -/
def addressesEqual (left right : Address) : Bool :=
  canonicalJson left.toJson == canonicalJson right.toJson

omit [HostPlatform] in
theorem numberFree_address (a : Address) : a.toJson.NumberFree := by
  refine .obj fun e he => ?_
  simp only [List.mem_cons, List.not_mem_nil, or_false] at he
  rcases he with rfl | rfl
  · exact .str _
  · exact .str _

/-- The canonical form of an address determines it, whatever `localeCompare` answers. -/
theorem canonicalJson_address_inj {a b : Address}
    (h : canonicalJson a.toJson = canonicalJson b.toJson) : a = b := by
  have hfree := numberFree_address a
  have hfree' := numberFree_address b
  have hkind : a.kind = b.kind := by
    obtain ⟨v, hv, heq⟩ := canonicalJson_entry hfree hfree' h
      (show (("kind" : JsString), Json.str a.kind) ∈ _ from List.mem_cons_self ..)
    simp only [List.mem_cons, List.not_mem_nil, or_false, Prod.mk.injEq, true_and] at hv
    rcases hv with rfl | ⟨hkey, _⟩
    · exact canonicalJson_str_inj heq
    · exact absurd hkey.symm b.idKey_ne_kind
  have hid : a.identifier = b.identifier := by
    obtain ⟨v, hv, heq⟩ := canonicalJson_entry hfree hfree' h
      (show (a.idKey, Json.str a.identifier) ∈ _ from List.mem_cons_of_mem _ (List.mem_cons_self ..))
    simp only [List.mem_cons, List.not_mem_nil, or_false, Prod.mk.injEq] at hv
    rcases hv with ⟨hkey, _⟩ | ⟨_, rfl⟩
    · exact absurd hkey a.idKey_ne_kind
    · exact canonicalJson_str_inj heq
  exact Address.eq_of_kind_identifier hkind hid

/-- **Two addresses compare equal exactly when they are the same address.** -/
@[simp] theorem addressesEqual_iff {a b : Address} : addressesEqual a b = true ↔ a = b := by
  constructor
  · intro h
    exact canonicalJson_address_inj (beq_iff_eq.mp h)
  · rintro rfl
    exact beq_self_eq_true _

/-! ## Paths -/

/-- `pathsEqual`: segment by segment. -/
def pathsEqual (left right : List JsString) : Bool := left == right

/-- `pathIsWithin`: the parent is a prefix, segment by segment. -/
def pathIsWithin (parent candidate : List JsString) : Bool := parent.isPrefixOf candidate

omit [HostPlatform] in
@[simp] theorem pathsEqual_iff {p q : List JsString} : pathsEqual p q = true ↔ p = q :=
  beq_iff_eq

omit [HostPlatform] in
@[simp] theorem pathIsWithin_iff {p q : List JsString} : pathIsWithin p q = true ↔ p <+: q :=
  List.isPrefixOf_iff_prefix

/-! ## Timestamps -/

/-- A declared timestamp that is present and readable. -/
def parseTimestamp (value : Option JsString) : Option Int := value.bind HostPlatform.dateParse

@[simp] theorem parseTimestamp_none : parseTimestamp none = none := rfl

@[simp] theorem parseTimestamp_some (s : JsString) :
    parseTimestamp (some s) = HostPlatform.dateParse s := rfl

/-- The two instants one grant is judged against. -/
structure GrantInstants where
  /-- The instant the turn's authority was resolved. -/
  admittedAt : Int
  /-- The instant of the operation being authorized. -/
  now : Int
  deriving DecidableEq

/-- The later of the two, at which expiry is observed. -/
def GrantInstants.expiryObservedAt (instants : GrantInstants) : Int :=
  max instants.admittedAt instants.now

/-- The two ways a grant is not active. -/
inductive InactiveReason where
  | window
  | purpose
  deriving DecidableEq

/-- Which of the two activity conditions a grant failed. -/
def grantInactiveReason (grant : CapabilityGrant) (purpose : JsString) (instants : GrantInstants) :
    Option InactiveReason :=
  let constraints := grant.constraints
  let issuedAt := parseTimestamp (some grant.issuedAt)
  let notBefore := parseTimestamp constraints.notBefore
  let expiresAt := parseTimestamp constraints.expiresAt
  let revokedAt := parseTimestamp grant.revokedAt
  if issuedAt.isNone || issuedAt.any (fun t => instants.admittedAt < t) ||
      (constraints.notBefore.isSome && notBefore.isNone) ||
      notBefore.any (fun t => instants.admittedAt < t) ||
      (constraints.expiresAt.isSome && expiresAt.isNone) ||
      expiresAt.any (fun t => t ≤ instants.expiryObservedAt) ||
      (grant.revokedAt.isSome && revokedAt.isNone) ||
      revokedAt.any (fun t => t ≤ instants.admittedAt) then
    some .window
  else
    match constraints.purposes with
    | none => none
    | some purposes => if purposes.contains purpose then none else some .purpose

/-- `grantIsActive`. -/
def grantIsActive (grant : CapabilityGrant) (purpose : JsString) (instants : GrantInstants) : Bool :=
  grantInactiveReason grant purpose instants = none

/-- What it takes for a grant to be active: every declared timestamp is readable, the grant had
started and was not revoked when the turn was admitted, it has not expired by the later of the two
instants, and its purposes, where it names any, include the one asked for. -/
structure Active (grant : CapabilityGrant) (purpose : JsString) (instants : GrantInstants) :
    Prop where
  issued : ∃ t, HostPlatform.dateParse grant.issuedAt = some t ∧ t ≤ instants.admittedAt
  started : ∀ s, grant.constraints.notBefore = some s →
    ∃ t, HostPlatform.dateParse s = some t ∧ t ≤ instants.admittedAt
  unexpired : ∀ s, grant.constraints.expiresAt = some s →
    ∃ t, HostPlatform.dateParse s = some t ∧ instants.expiryObservedAt < t
  unrevoked : ∀ s, grant.revokedAt = some s →
    ∃ t, HostPlatform.dateParse s = some t ∧ instants.admittedAt < t
  purposed : ∀ ps, grant.constraints.purposes = some ps → purpose ∈ ps

/-- A declared bound does not end a grant when it is absent, or readable and on the right side. -/
theorem declared_iff {value : Option JsString} {ends : Int → Bool} :
    (value.isSome && (parseTimestamp value).isNone) = false ∧
        (parseTimestamp value).any ends = false ↔
      ∀ s, value = some s → ∃ t, HostPlatform.dateParse s = some t ∧ ends t = false := by
  cases value with
  | none => simp
  | some s => cases h : HostPlatform.dateParse s <;> simp [h]

theorem issued_iff {issuedAt : JsString} {instants : GrantInstants} :
    (parseTimestamp (some issuedAt)).isNone = false ∧
        (parseTimestamp (some issuedAt)).any (fun t => instants.admittedAt < t) = false ↔
      ∃ t, HostPlatform.dateParse issuedAt = some t ∧ t ≤ instants.admittedAt := by
  cases h : HostPlatform.dateParse issuedAt <;> simp [h]

/-- **The activity check decides activity.** -/
theorem grantIsActive_iff {grant : CapabilityGrant} {purpose : JsString}
    {instants : GrantInstants} :
    grantIsActive grant purpose instants = true ↔ Active grant purpose instants := by
  have hstarted := @declared_iff _ grant.constraints.notBefore
    fun t => decide (instants.admittedAt < t)
  have hunexpired := @declared_iff _ grant.constraints.expiresAt
    fun t => decide (t ≤ instants.expiryObservedAt)
  have hunrevoked := @declared_iff _ grant.revokedAt fun t => decide (t ≤ instants.admittedAt)
  have hpurposed : (match grant.constraints.purposes with
      | none => none
      | some ps => if ps.contains purpose then none else some InactiveReason.purpose) = none ↔
        ∀ ps, grant.constraints.purposes = some ps → purpose ∈ ps := by
    cases grant.constraints.purposes <;> simp
  simp only [decide_eq_false_iff_not, not_lt, not_le] at hstarted hunexpired hunrevoked
  unfold grantIsActive grantInactiveReason
  rw [decide_eq_true_iff]
  dsimp only
  split
  · next hwindow =>
      -- some timestamp ends the grant, so one of the first four fields fails
      refine iff_of_false (by simp) fun h => ?_
      have hissued := issued_iff.mpr h.issued
      have hstarted := hstarted.mpr h.started
      have hunexpired := hunexpired.mpr h.unexpired
      have hunrevoked := hunrevoked.mpr h.unrevoked
      simp only [hissued, hstarted, hunexpired, hunrevoked, Bool.or_self,
        Bool.false_eq_true] at hwindow
  · next hwindow =>
      rw [Bool.not_eq_true] at hwindow
      simp only [Bool.or_eq_false_iff, and_assoc] at hwindow
      obtain ⟨i₁, i₂, s₁, s₂, e₁, e₂, r₁, r₂⟩ := hwindow
      rw [hpurposed]
      constructor
      · intro hps
        exact ⟨issued_iff.mp ⟨i₁, i₂⟩, hstarted.mp ⟨s₁, s₂⟩, hunexpired.mp ⟨e₁, e₂⟩,
          hunrevoked.mp ⟨r₁, r₂⟩, hps⟩
      · exact fun h => h.purposed

end SharedOS.Core
