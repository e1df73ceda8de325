/-
SharedOS.Contracts.Capability — resources, capabilities, constraints, grants and requests.

The data of an authorization decision. A resource path is an opaque list of segments, and a scope
says whether a capability covers that path only or everything beneath it. A capability is positive: a
resource, some actions on it and a scope, with nothing that takes away. A constraint that is absent
is absent, never a default: a grant without `maxUses` has no budget rather than an infinite one.

Each type has two readings. `toJson` is the object a host stores and a digest is taken of, its members
in the order of the source. The schema is the zod parse: it trims identifiers, bounds every list, and
refuses a validity window that ends before it starts.

A schema is idempotent: what it answers it accepts again unchanged. The laws that say so stand beside
each schema, because a grant is parsed where it is derived, where it is loaded and where it is met as
an ancestor, and the three must agree.
-/
import SharedOS.Contracts.Common

namespace SharedOS.Contracts

open SharedOS.Foundation

/-! ## Data -/

/-- A host-independent reference to a resource. -/
structure ResourceRef where
  «namespace» : JsString
  path : List JsString
  owner : Option Address
  deriving DecidableEq

/-- What a capability covers: the path itself, or everything beneath it too. -/
inductive Scope where
  | exact
  | descendants
  deriving DecidableEq

/-- A positive capability. -/
structure Capability where
  resource : ResourceRef
  actions : List JsString
  scope : Scope
  deriving DecidableEq

/-- The bounds of a grant. -/
structure CapabilityConstraints where
  purposes : Option (List JsString)
  notBefore : Option JsString
  expiresAt : Option JsString
  maxUses : Option Int
  delegationDepth : Option Int
  deriving DecidableEq

/-- No bound at all. -/
def CapabilityConstraints.unbounded : CapabilityConstraints where
  purposes := none
  notBefore := none
  expiresAt := none
  maxUses := none
  delegationDepth := none

/-- Authority issued to one subject and bounded by explicit constraints. -/
structure CapabilityGrant where
  id : JsString
  namespaceId : JsString
  subject : Address
  issuer : Address
  capabilities : List Capability
  constraints : CapabilityConstraints
  issuedAt : JsString
  revokedAt : Option JsString
  parentGrantId : Option JsString
  metadata : Option Json

/-- The exact capability an operation requires. -/
structure CapabilityRequirement where
  resource : ResourceRef
  action : JsString
  deriving DecidableEq

/-- A description of authority that is missing. It grants nothing. -/
structure CapabilityRequest where
  id : JsString
  namespaceId : JsString
  requester : Address
  owner : Address
  capabilities : List Capability
  purpose : JsString
  constraints : Option CapabilityConstraints
  requestedAt : JsString
  metadata : Option Json

/-- Where an actor may operate, with the authority stripped out. -/
@[ext]
structure ResourceReach where
  «namespace» : JsString
  path : List JsString
  actions : List JsString
  scope : Scope
  deriving DecidableEq

/-! ## JSON forms -/

/-- An array of strings. -/
def jsonStrings (xs : List JsString) : Json := .arr (xs.map .str)

/-- A whole number, as JSON. -/
def jsonInt (n : Int) : Json := .num (.finite n)

/-- A resource as an object. An owner that is absent has no member. -/
def ResourceRef.toJson (r : ResourceRef) : Json :=
  .obj (([("namespace", .str r.namespace), ("path", jsonStrings r.path)] :
      List (JsString × Json)) ++
    optionalEntry "owner" (r.owner.map Address.toJson))

/-- The word of a scope. -/
def Scope.toJson : Scope → Json
  | .exact => .str "exact"
  | .descendants => .str "descendants"

/-- A capability as an object. -/
def Capability.toJson (c : Capability) : Json :=
  .obj [("resource", c.resource.toJson), ("actions", jsonStrings c.actions),
    ("scope", c.scope.toJson)]

/-- The constraints that are present, as an object. -/
def CapabilityConstraints.toJson (c : CapabilityConstraints) : Json :=
  .obj (optionalEntry "purposes" (c.purposes.map jsonStrings) ++
    optionalEntry "notBefore" (c.notBefore.map .str) ++
    optionalEntry "expiresAt" (c.expiresAt.map .str) ++
    optionalEntry "maxUses" (c.maxUses.map jsonInt) ++
    optionalEntry "delegationDepth" (c.delegationDepth.map jsonInt))

/-- A grant as the object it is stored as, members in the order of the schema. -/
def CapabilityGrant.toJson (g : CapabilityGrant) : Json :=
  .obj (([("id", .str g.id), ("namespaceId", .str g.namespaceId), ("subject", g.subject.toJson),
      ("issuer", g.issuer.toJson), ("capabilities", .arr (g.capabilities.map Capability.toJson)),
      ("constraints", g.constraints.toJson), ("issuedAt", .str g.issuedAt)] :
      List (JsString × Json)) ++
    optionalEntry "revokedAt" (g.revokedAt.map .str) ++
    optionalEntry "parentGrantId" (g.parentGrantId.map .str) ++
    optionalEntry "metadata" g.metadata)

/-- One entry of a reach, as an object. -/
def ResourceReach.toJson (entry : ResourceReach) : Json :=
  .obj [("namespace", .str entry.namespace), ("path", jsonStrings entry.path),
    ("actions", jsonStrings entry.actions), ("scope", entry.scope.toJson)]

/-! ## Schemas -/

/-- The regular expression of `PathSegmentSchema`, on a trimmed segment. -/
def isPathSegment (s : JsString) : Bool :=
  s ≠ "." && s ≠ ".." &&
    s.all fun u => u ≠ 0x2F && u ≠ reverseSolidus && 0x20 ≤ u && u ≠ 0x7F

/-- `PathSegmentSchema`: one segment, without a separator and not a step up or in place. -/
def pathSegmentSchema (s : JsString) : Option JsString := do
  let t ← trimmedString 256 s
  if isPathSegment t then some t else none

/-- `ActionSchema`. -/
def actionSchema : JsString → Option JsString := trimmedString 128

/-- `PurposeSchema`. -/
def purposeSchema : JsString → Option JsString := trimmedString 512

/-- `z.array(schema).min(low).max(high)`. -/
def arraySchema {α : Type} (schema : α → Option α) (low high : Nat) (xs : List α) :
    Option (List α) :=
  if low ≤ xs.length ∧ xs.length ≤ high then xs.mapM schema else none

/-- A list is its own parse when its items are. -/
theorem mapM_eq_self_iff {α : Type} {schema : α → Option α} {xs : List α} :
    xs.mapM schema = some xs ↔ ∀ x ∈ xs, schema x = some x := by
  induction xs with
  | nil => simp
  | cons x rest ih =>
      rw [List.mapM_cons, List.forall_mem_cons, ← ih]
      simp [Option.bind_eq_some_iff]

/-- A list is accepted when its items are. -/
theorem mapM_isSome_iff {α : Type} {schema : α → Option α} {xs : List α} :
    (xs.mapM schema).isSome ↔ ∀ x ∈ xs, (schema x).isSome := by
  induction xs with
  | nil => simp
  | cons x rest ih =>
      rw [List.mapM_cons, List.forall_mem_cons, ← ih]
      cases schema x <;> cases rest.mapM schema <;> simp

/-- What a list is parsed to: as many items, each the parse of one. -/
theorem of_mapM {α : Type} {schema : α → Option α} {xs ys : List α}
    (h : xs.mapM schema = some ys) :
    ys.length = xs.length ∧ ∀ y ∈ ys, ∃ x ∈ xs, schema x = some y := by
  induction xs generalizing ys with
  | nil =>
      cases h
      exact ⟨rfl, by simp⟩
  | cons x rest ih =>
      rw [List.mapM_cons] at h
      obtain ⟨y, hy, h⟩ := Option.bind_eq_some_iff.mp h
      obtain ⟨ys', hys, h⟩ := Option.bind_eq_some_iff.mp h
      cases h
      obtain ⟨hlength, hmem⟩ := ih hys
      refine ⟨by rw [List.length_cons, List.length_cons, hlength], fun z hz => ?_⟩
      rcases List.mem_cons.mp hz with rfl | hz
      · exact ⟨x, List.mem_cons_self, hy⟩
      · obtain ⟨w, hw, hz⟩ := hmem z hz
        exact ⟨w, List.mem_cons_of_mem _ hw, hz⟩

/-- A bounded array is its own parse when its items are. -/
theorem arraySchema_eq_self_iff {α : Type} {schema : α → Option α} {low high : Nat} {xs : List α} :
    arraySchema schema low high xs = some xs ↔
      (low ≤ xs.length ∧ xs.length ≤ high) ∧ ∀ x ∈ xs, schema x = some x := by
  rw [← mapM_eq_self_iff, arraySchema]
  split_ifs with hbounds <;> simp [hbounds]

/-- A bounded array is accepted when its items are. -/
theorem arraySchema_isSome_iff {α : Type} {schema : α → Option α} {low high : Nat} {xs : List α} :
    (arraySchema schema low high xs).isSome ↔
      (low ≤ xs.length ∧ xs.length ≤ high) ∧ ∀ x ∈ xs, (schema x).isSome := by
  rw [← mapM_isSome_iff, arraySchema]
  split_ifs with hbounds <;> simp [hbounds]

theorem of_arraySchema {α : Type} {schema : α → Option α} {low high : Nat} {xs ys : List α}
    (h : arraySchema schema low high xs = some ys) :
    low ≤ ys.length ∧ ys.length ≤ high ∧ ∀ y ∈ ys, ∃ x ∈ xs, schema x = some y := by
  unfold arraySchema at h
  split_ifs at h with hbounds
  obtain ⟨hlength, hmem⟩ := of_mapM h
  rw [hlength]
  exact ⟨hbounds.1, hbounds.2, hmem⟩

mutual

/-- `JsonValueSchema`: a number must be finite, and a record is rebuilt without `__proto__`. -/
def jsonSchema : Json → Option Json
  | .num (.finite q) => some (.num (.finite q))
  | .num .negZero => some (.num .negZero)
  | .num _ => none
  | .arr items => (jsonItemsSchema items).map .arr
  | .obj entries => (jsonEntriesSchema entries).map .obj
  | v => some v

/-- The items of an array, each parsed. -/
def jsonItemsSchema : List Json → Option (List Json)
  | [] => some []
  | v :: rest => do
      let v ← jsonSchema v
      let rest ← jsonItemsSchema rest
      some (v :: rest)

/-- The members of an object, each parsed; one of the name `__proto__` is lost. -/
def jsonEntriesSchema : List (JsString × Json) → Option (List (JsString × Json))
  | [] => some []
  | (k, v) :: rest => do
      let v ← jsonSchema v
      let rest ← jsonEntriesSchema rest
      some (if k = "__proto__" then rest else (k, v) :: rest)

end

/-- `JsonObjectSchema`. -/
def jsonObjectSchema : Json → Option Json
  | .obj entries => (jsonEntriesSchema entries).map .obj
  | _ => none

/-- The items of an array, read one by one. -/
theorem jsonItemsSchema_cons {v : Json} {rest items : List Json}
    (h : jsonItemsSchema (v :: rest) = some items) :
    ∃ v' rest', jsonSchema v = some v' ∧ jsonItemsSchema rest = some rest' ∧ items = v' :: rest' := by
  unfold jsonItemsSchema at h
  simp only [Option.bind_eq_bind, Option.bind_eq_some_iff] at h
  obtain ⟨v', hv, rest', hrest, heq⟩ := h
  exact ⟨v', rest', hv, hrest, (Option.some.inj heq).symm⟩

theorem jsonEntriesSchema_cons {k : JsString} {v : Json} {rest entries : List (JsString × Json)}
    (h : jsonEntriesSchema ((k, v) :: rest) = some entries) :
    ∃ v' rest', jsonSchema v = some v' ∧ jsonEntriesSchema rest = some rest' ∧
      entries = if k = "__proto__" then rest' else (k, v') :: rest' := by
  unfold jsonEntriesSchema at h
  simp only [Option.bind_eq_bind, Option.bind_eq_some_iff] at h
  obtain ⟨v', hv, rest', hrest, heq⟩ := h
  exact ⟨v', rest', hv, hrest, (Option.some.inj heq).symm⟩

/-- **A parsed value is its own parse.** -/
theorem jsonSchema_idem {v w : Json} (h : jsonSchema v = some w) : jsonSchema w = some w := by
  induction v generalizing w with
  | null =>
      cases h
      rfl
  | bool b =>
      cases h
      rfl
  | num x =>
      cases x <;> cases h <;> rfl
  | str s =>
      cases h
      rfl
  | arr items ih =>
      obtain ⟨parsed, hparsed, rfl⟩ := Option.map_eq_some_iff.mp h
      have hitems : jsonItemsSchema parsed = some parsed := by
        clear h
        induction items generalizing parsed with
        | nil =>
            cases hparsed
            rfl
        | cons v rest ihrest =>
            obtain ⟨v', rest', hv, hrest, rfl⟩ := jsonItemsSchema_cons hparsed
            have hhead := ih v List.mem_cons_self hv
            have htail := ihrest (fun u hu => ih u (List.mem_cons_of_mem v hu)) rest' hrest
            unfold jsonItemsSchema
            rw [hhead, htail]
            rfl
      show (jsonItemsSchema parsed).map Json.arr = _
      rw [hitems, Option.map_some]
  | obj entries ih =>
      obtain ⟨parsed, hparsed, rfl⟩ := Option.map_eq_some_iff.mp h
      have hentries : jsonEntriesSchema parsed = some parsed := by
        clear h
        induction entries generalizing parsed with
        | nil =>
            cases hparsed
            rfl
        | cons entry rest ihrest =>
            obtain ⟨k, v⟩ := entry
            obtain ⟨v', rest', hv, hrest, rfl⟩ := jsonEntriesSchema_cons hparsed
            have hhead := ih (k, v) List.mem_cons_self hv
            have htail := ihrest (fun u hu => ih u (List.mem_cons_of_mem _ hu)) rest' hrest
            split
            · exact htail
            · next hkey =>
                unfold jsonEntriesSchema
                rw [hhead, htail]
                show some (if k = _ then _ else _) = _
                rw [if_neg hkey]
      show (jsonEntriesSchema parsed).map Json.obj = _
      rw [hentries, Option.map_some]

theorem jsonObjectSchema_idem {v w : Json} (h : jsonObjectSchema v = some w) :
    jsonObjectSchema w = some w := by
  cases v with
  | obj entries =>
      obtain ⟨parsed, hparsed, rfl⟩ := Option.map_eq_some_iff.mp h
      exact jsonSchema_idem (v := .obj entries) h
  | _ => cases h

/-- `ResourceRefSchema`. -/
def resourceRefSchema (r : ResourceRef) : Option ResourceRef := do
  let name ← identifierSchema r.namespace
  let path ← arraySchema pathSegmentSchema 0 64 r.path
  let owner ← optionalSchema Address.schema r.owner
  some { «namespace» := name, path, owner }

/-- `CapabilitySchema`: at least one action. -/
def capabilitySchema (c : Capability) : Option Capability := do
  let resource ← resourceRefSchema c.resource
  let actions ← arraySchema actionSchema 1 64 c.actions
  some { resource, actions, scope := c.scope }

/-- `Date.parse(notBefore) > Date.parse(expiresAt)`, false when either is `NaN`. -/
def startsAfterEnd [HostPlatform] (c : CapabilityConstraints) : Bool :=
  match c.notBefore.bind HostPlatform.dateParse, c.expiresAt.bind HostPlatform.dateParse with
  | some start, some stop => stop < start
  | _, _ => false

/-- `CapabilityConstraintsSchema`: bounds, and a window that does not end before it starts. -/
def capabilityConstraintsSchema [HostPlatform] (c : CapabilityConstraints) :
    Option CapabilityConstraints := do
  let purposes ← optionalSchema (arraySchema purposeSchema 1 64) c.purposes
  let notBefore ← optionalSchema timestampSchema c.notBefore
  let expiresAt ← optionalSchema timestampSchema c.expiresAt
  let maxUses ← optionalSchema (fun n => if 0 < n then some n else none) c.maxUses
  let delegationDepth ←
    optionalSchema (fun n => if 0 ≤ n then some n else none) c.delegationDepth
  if startsAfterEnd c then none
  else some { purposes, notBefore, expiresAt, maxUses, delegationDepth }

/-- What the schema asks of the bounds it leaves as they are: all but the purposes. -/
structure BoundsValid [HostPlatform] (c : CapabilityConstraints) : Prop where
  starts : ∀ s, c.notBefore = some s → HostPlatform.isDatetime s = true
  stops : ∀ s, c.expiresAt = some s → HostPlatform.isDatetime s = true
  uses : ∀ n, c.maxUses = some n → 0 < n
  depth : ∀ n, c.delegationDepth = some n → 0 ≤ n
  window : startsAfterEnd c = false

theorem capabilityConstraintsSchema_iff [HostPlatform] {c parsed : CapabilityConstraints} :
    capabilityConstraintsSchema c = some parsed ↔
      BoundsValid c ∧ ∃ purposes, parsed = { c with purposes } ∧
        optionalSchema (arraySchema purposeSchema 1 64) c.purposes = some purposes := by
  unfold capabilityConstraintsSchema timestampSchema
  simp only [Option.bind_eq_bind, Option.bind_eq_some_iff, optionalSchema_test]
  constructor
  · rintro ⟨purposes, hpurposes, _, ⟨rfl, hstarts⟩, _, ⟨rfl, hstops⟩, _, ⟨rfl, huses⟩, _,
      ⟨rfl, hdepth⟩, h⟩
    split_ifs at h with hwindow
    cases h
    exact ⟨⟨hstarts, hstops, huses, hdepth, by simpa using hwindow⟩, purposes, rfl, hpurposes⟩
  · rintro ⟨hvalid, purposes, rfl, hpurposes⟩
    exact ⟨purposes, hpurposes, _, ⟨rfl, hvalid.starts⟩, _, ⟨rfl, hvalid.stops⟩, _,
      ⟨rfl, hvalid.uses⟩, _, ⟨rfl, hvalid.depth⟩, by rw [hvalid.window]; rfl⟩

/-- The purposes are what the schema parses, and the bounds what it tests. -/
theorem capabilityConstraintsSchema_isSome_iff [HostPlatform] {c : CapabilityConstraints} :
    (capabilityConstraintsSchema c).isSome ↔
      BoundsValid c ∧ ∀ ps, c.purposes = some ps → (arraySchema purposeSchema 1 64 ps).isSome := by
  rw [Option.isSome_iff_exists, ← optionalSchema_isSome_iff, Option.isSome_iff_exists]
  simp only [capabilityConstraintsSchema_iff]
  constructor
  · rintro ⟨_, hvalid, purposes, -, hpurposes⟩
    exact ⟨hvalid, purposes, hpurposes⟩
  · rintro ⟨hvalid, purposes, hpurposes⟩
    exact ⟨_, hvalid, purposes, rfl, hpurposes⟩

/-- **What the schema answers is its own parse.** -/
theorem capabilityConstraintsSchema_idem [HostPlatform] {c parsed : CapabilityConstraints}
    (h : capabilityConstraintsSchema c = some parsed) :
    capabilityConstraintsSchema parsed = some parsed := by
  obtain ⟨hvalid, purposes, rfl, hpurposes⟩ := capabilityConstraintsSchema_iff.mp h
  refine capabilityConstraintsSchema_iff.mpr
    ⟨⟨hvalid.starts, hvalid.stops, hvalid.uses, hvalid.depth, hvalid.window⟩, purposes, rfl, ?_⟩
  show optionalSchema (arraySchema purposeSchema 1 64) purposes = some purposes
  -- trimming a purpose a second time does nothing
  cases hnamed : c.purposes with
  | none =>
      rw [hnamed] at hpurposes
      cases hpurposes
      rfl
  | some named =>
      rw [hnamed] at hpurposes
      obtain ⟨parsed, hparsed, rfl⟩ := Option.map_eq_some_iff.mp hpurposes
      obtain ⟨hlow, hhigh, hmem⟩ := of_arraySchema hparsed
      have hown : arraySchema purposeSchema 1 64 parsed = some parsed :=
        arraySchema_eq_self_iff.mpr ⟨⟨hlow, hhigh⟩, fun y hy => by
          obtain ⟨x, _, hx⟩ := hmem y hy
          exact trimmedString_idem hx⟩
      exact congrArg (Option.map some) hown

/-- `CapabilityRequestSchema`. -/
def capabilityRequestSchema [HostPlatform] (r : CapabilityRequest) : Option CapabilityRequest := do
  let id ← identifierSchema r.id
  let namespaceId ← identifierSchema r.namespaceId
  let requester ← r.requester.schema
  let owner ← r.owner.schema
  let capabilities ← arraySchema capabilitySchema 1 64 r.capabilities
  let purpose ← purposeSchema r.purpose
  let constraints ← optionalSchema capabilityConstraintsSchema r.constraints
  let requestedAt ← timestampSchema r.requestedAt
  let metadata ← optionalSchema jsonObjectSchema r.metadata
  some { id, namespaceId, requester, owner, capabilities, purpose, constraints, requestedAt,
         metadata }

/-- `CapabilityGrantSchema`. -/
def capabilityGrantSchema [HostPlatform] (g : CapabilityGrant) : Option CapabilityGrant := do
  let id ← identifierSchema g.id
  let namespaceId ← identifierSchema g.namespaceId
  let subject ← g.subject.schema
  let issuer ← g.issuer.schema
  let capabilities ← arraySchema capabilitySchema 1 64 g.capabilities
  let constraints ← capabilityConstraintsSchema g.constraints
  let issuedAt ← timestampSchema g.issuedAt
  let revokedAt ← optionalSchema timestampSchema g.revokedAt
  let parentGrantId ← optionalSchema identifierSchema g.parentGrantId
  let metadata ← optionalSchema jsonObjectSchema g.metadata
  -- the refinement compares the parsed identifiers
  if parentGrantId = some id then none
  else some { id, namespaceId, subject, issuer, capabilities, constraints, issuedAt, revokedAt,
              parentGrantId, metadata }

/-- The parts of a grant that the schema looks at one by one. -/
structure GrantPartsValid [HostPlatform] (g : CapabilityGrant) : Prop where
  id : (identifierSchema g.id).isSome
  namespaceId : (identifierSchema g.namespaceId).isSome
  subject : g.subject.schema.isSome
  issuer : g.issuer.schema.isSome
  capabilities : (arraySchema capabilitySchema 1 64 g.capabilities).isSome
  constraints : (capabilityConstraintsSchema g.constraints).isSome
  issuedAt : (timestampSchema g.issuedAt).isSome
  revokedAt : ∀ t, g.revokedAt = some t → (timestampSchema t).isSome
  parentGrantId : ∀ p, g.parentGrantId = some p → (identifierSchema p).isSome
  metadata : ∀ v, g.metadata = some v → (jsonObjectSchema v).isSome

/-- **What the grant schema accepts**: valid parts, and a parent whose identifier is another one
once both are trimmed. -/
theorem capabilityGrantSchema_isSome_iff [HostPlatform] {g : CapabilityGrant} :
    (capabilityGrantSchema g).isSome ↔
      GrantPartsValid g ∧ ∀ p, g.parentGrantId = some p → trim p ≠ trim g.id := by
  rw [Option.isSome_iff_exists]
  unfold capabilityGrantSchema
  simp only [Option.bind_eq_bind, Option.bind_eq_some_iff]
  constructor
  · rintro ⟨_, id, hid, _, hns, _, hsubject, _, hissuer, _, hcaps, _, hcons, _, hissued, _, hrevoked,
      parent, hparent, _, hmeta, h⟩
    split_ifs at h with hself
    have hof : ∀ {α : Type} {x : Option α} {a : α}, x = some a → x.isSome :=
      fun hx => Option.isSome_iff_exists.mpr ⟨_, hx⟩
    refine ⟨⟨hof hid, hof hns, hof hsubject, hof hissuer, hof hcaps, hof hcons, hof hissued,
      optionalSchema_isSome_iff.mp (hof hrevoked), optionalSchema_isSome_iff.mp (hof hparent),
      optionalSchema_isSome_iff.mp (hof hmeta)⟩, ?_⟩
    rintro p hp htrim
    rw [hp] at hparent
    obtain ⟨t, ht, rfl⟩ := Option.map_eq_some_iff.mp hparent
    rw [eq_trim_of_trimmedString ht, eq_trim_of_trimmedString hid, htrim] at hself
    exact hself rfl
  · rintro ⟨hparts, hself⟩
    obtain ⟨id, hid⟩ := Option.isSome_iff_exists.mp hparts.id
    obtain ⟨ns, hns⟩ := Option.isSome_iff_exists.mp hparts.namespaceId
    obtain ⟨subject, hsubject⟩ := Option.isSome_iff_exists.mp hparts.subject
    obtain ⟨issuer, hissuer⟩ := Option.isSome_iff_exists.mp hparts.issuer
    obtain ⟨caps, hcaps⟩ := Option.isSome_iff_exists.mp hparts.capabilities
    obtain ⟨cons, hcons⟩ := Option.isSome_iff_exists.mp hparts.constraints
    obtain ⟨issued, hissued⟩ := Option.isSome_iff_exists.mp hparts.issuedAt
    obtain ⟨revoked, hrevoked⟩ := Option.isSome_iff_exists.mp
      (optionalSchema_isSome_iff.mpr hparts.revokedAt)
    obtain ⟨parent, hparent⟩ := Option.isSome_iff_exists.mp
      (optionalSchema_isSome_iff.mpr hparts.parentGrantId)
    obtain ⟨metadata, hmeta⟩ := Option.isSome_iff_exists.mp
      (optionalSchema_isSome_iff.mpr hparts.metadata)
    have hother : parent ≠ some id := by
      rintro rfl
      cases hp : g.parentGrantId with
      | none =>
          rw [hp] at hparent
          cases hparent
      | some p =>
          rw [hp] at hparent
          obtain ⟨t, ht, hsome⟩ := Option.map_eq_some_iff.mp hparent
          obtain rfl := Option.some.inj hsome
          exact hself p hp
            ((eq_trim_of_trimmedString ht).symm.trans (eq_trim_of_trimmedString hid))
    exact ⟨_, id, hid, ns, hns, subject, hsubject, issuer, hissuer, caps, hcaps, cons, hcons, issued,
      hissued, revoked, hrevoked, parent, hparent, metadata, hmeta, if_neg hother⟩

/-- `CapabilityRequirementSchema`. -/
def capabilityRequirementSchema (r : CapabilityRequirement) : Option CapabilityRequirement := do
  let resource ← resourceRefSchema r.resource
  let action ← actionSchema r.action
  some { resource, action }

end SharedOS.Contracts
