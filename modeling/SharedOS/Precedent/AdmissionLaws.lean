/-
SharedOS.Precedent.AdmissionLaws — what an admitted decision is bounded by.

An allow that is admitted matches nothing that any cited precedent does not match, within an
envelope no looser than any of theirs. The rows enter the decision as a collection: the order and
the repetition of citations and the order of the rows change nothing but spellings.

The first half goes from the rules to what they mean. Containment of a proposed capability in a
precedent's is inclusion of what the two permit (`Core.Containment`), and the admitted envelope is the
meet of the precedents' (`Core.ConstraintLattice`): both are used from there, so what is left here is
that the walk over the rows asks them of every row.

The second half is about permutations. The lookup's rows may come in any order, and two rows of one
request are one citation's answer. What the rules compute of the rows is a meet, a membership or a
universal statement, each blind to order, up to which spelling of an instant or which order of a list
of purposes is kept. For that the rows must be as the contract has them (`ContractRow`), and
`rows_outside_contract` shows what rows that are not can do.
-/
import SharedOS.Precedent.Admission

namespace SharedOS.Precedent

open SharedOS.Foundation SharedOS.Contracts SharedOS.Core

/-! ## Citations -/

/-- Items in the order in which their images are wanted. -/
theorem exists_perm_map_eq {α β : Type} {f : α → β} {items : List α} {images : List β}
    (h : images.Perm (items.map f)) :
    ∃ sorted : List α, sorted.Perm items ∧ sorted.map f = images := by
  generalize hmap : items.map f = mapped at h
  induction h generalizing items with
  | nil =>
      obtain rfl := List.map_eq_nil_iff.mp hmap
      exact ⟨[], .nil, rfl⟩
  | cons x _ ih =>
      obtain ⟨a, rest, rfl, rfl, hrest⟩ := List.map_eq_cons_iff.mp hmap
      obtain ⟨sorted, hperm, rfl⟩ := ih hrest
      exact ⟨a :: sorted, hperm.cons a, rfl⟩
  | swap x y l =>
      obtain ⟨a, rest, rfl, rfl, hrest⟩ := List.map_eq_cons_iff.mp hmap
      obtain ⟨b, rest', rfl, rfl, rfl⟩ := List.map_eq_cons_iff.mp hrest
      exact ⟨b :: a :: rest', .swap a b rest', rfl⟩
  | trans _ _ ih ih' =>
      obtain ⟨middle, hmiddle, hmapped⟩ := ih' hmap
      obtain ⟨sorted, hsorted, heq⟩ := ih hmapped
      exact ⟨sorted, hsorted.trans hmiddle, heq⟩

/-- A row is found under its own id. -/
theorem find_row {rows : List Precedent} (hnodup : (rows.map Precedent.requestId).Nodup)
    {row : Precedent} (hrow : row ∈ rows) :
    rows.find? (fun other => other.requestId = row.requestId) = some row := by
  cases hfind : rows.find? (fun other => other.requestId = row.requestId) with
  | none =>
      have := List.find?_eq_none.mp hfind row hrow
      simp at this
  | some other =>
      have hsame : other.requestId = row.requestId := by
        simpa using List.find?_some hfind
      exact congrArg some
        (List.inj_on_of_nodup_map hnodup (List.mem_of_find?_eq_some hfind) hrow hsame)

/-- Looking up the ids of rows that are all there gives the rows. -/
theorem mapM_find_row {rows table : List Precedent} (hnodup : (table.map Precedent.requestId).Nodup)
    (hrows : ∀ row ∈ rows, row ∈ table) :
    (rows.map Precedent.requestId).mapM
      (fun id => table.find? fun precedent => precedent.requestId = id) = some rows := by
  induction rows with
  | nil => rfl
  | cons row rest ih =>
      rw [List.map_cons, List.mapM_cons, find_row hnodup (hrows row List.mem_cons_self),
        ih fun r hr => hrows r (List.mem_cons_of_mem _ hr)]
      rfl

/-- What looking up ids in a table gives: rows of the table, under those ids. -/
theorem of_mapM_find {table rows : List Precedent} {ids : List JsString}
    (h : ids.mapM (fun id => table.find? fun precedent => precedent.requestId = id) = some rows) :
    rows.map Precedent.requestId = ids ∧ ∀ row ∈ rows, row ∈ table := by
  induction ids generalizing rows with
  | nil =>
      cases h
      exact ⟨rfl, by simp⟩
  | cons id rest ih =>
      rw [List.mapM_cons] at h
      obtain ⟨row, hrow, h⟩ := Option.bind_eq_some_iff.mp h
      obtain ⟨others, hothers, h⟩ := Option.bind_eq_some_iff.mp h
      cases h
      obtain ⟨hids, htable⟩ := ih hothers
      have hid : row.requestId = id := by simpa using List.find?_some hrow
      refine ⟨by rw [List.map_cons, hid, hids], fun r hr => ?_⟩
      rcases List.mem_cons.mp hr with rfl | hr
      · exact List.mem_of_find?_eq_some hrow
      · exact htable r hr

/-- **The rows cited**: those loaded, in the order of their citation, and no others. -/
theorem citedPrecedents_iff {loaded rows : List Precedent} {cited : List JsString}
    (hcited : cited.Nodup) :
    citedPrecedents loaded cited = some rows ↔
      rows.Perm loaded ∧ rows.map Precedent.requestId = cited := by
  unfold citedPrecedents
  dsimp only
  constructor
  · intro h
    split_ifs at h with hlength hsize
    have hnodup : (loaded.map Precedent.requestId).Nodup := by
      have hdistinct := @nodup_of_length_foldl_setByKey _ _ _ Precedent.requestId [] loaded
        List.nodup_nil (by rw [not_not.mp hsize, List.length_nil, Nat.zero_add])
      exact hdistinct
    rw [show loaded.foldl (setByKey Precedent.requestId) [] = loaded from
      foldl_setByKey_fresh hnodup] at h
    obtain ⟨hids, hmem⟩ := of_mapM_find h
    refine ⟨?_, hids⟩
    have hrows : rows.Nodup := List.Nodup.of_map Precedent.requestId (hids ▸ hcited)
    refine (List.subperm_of_subset hrows hmem).perm_of_length_le ?_
    rw [not_not.mp hlength, ← hids, List.length_map]
  · rintro ⟨hperm, rfl⟩
    have hnodup : (loaded.map Precedent.requestId).Nodup := (hperm.map _).nodup_iff.mp hcited
    rw [show loaded.foldl (setByKey Precedent.requestId) [] = loaded from
      foldl_setByKey_fresh hnodup, if_neg (by rw [not_not, List.length_map, hperm.length_eq]),
      if_neg (by simp)]
    exact mapM_find_row hnodup fun row hrow => hperm.mem_iff.mp hrow

/-- The order of the rows and of the citations is the only thing that shows in the order of what
is cited. -/
theorem citedPrecedents_perm {loaded loaded' rows : List Precedent} {cited cited' : List JsString}
    (hcited : cited.Nodup) (hloaded : loaded.Perm loaded') (hperm : cited.Perm cited')
    (h : citedPrecedents loaded cited = some rows) :
    ∃ rows', citedPrecedents loaded' cited' = some rows' ∧ rows.Perm rows' := by
  obtain ⟨hrows, hids⟩ := (citedPrecedents_iff hcited).mp h
  obtain ⟨rows', hsorted, hids'⟩ :=
    exists_perm_map_eq (show cited'.Perm (rows.map Precedent.requestId) from hids ▸ hperm.symm)
  refine ⟨rows', (citedPrecedents_iff (hperm.nodup_iff.mp hcited)).mpr ⟨?_, hids'⟩, hsorted.symm⟩
  exact hsorted.trans (hrows.trans hloaded)

theorem distinct_perm {α : Type} [DecidableEq α] {xs ys : List α} (h : ∀ x, x ∈ xs ↔ x ∈ ys) :
    (distinct xs).Perm (distinct ys) :=
  (List.perm_ext_iff_of_nodup (nodup_distinct xs) (nodup_distinct ys)).mpr fun x => by simp [h]

/-! ## Approvals -/

section Approvals

variable [HostPlatform] {request : CapabilityRequest} {approved : List ApprovedPrecedent}

/-- Approvals of this requester are taken as they are. -/
theorem approvedPrecedents_map (h : ∀ row ∈ approved, row.key.requester = request.requester) :
    approvedPrecedents request (approved.map .approved) = .ok approved := by
  induction approved with
  | nil => rfl
  | cons row rest ih =>
      rw [List.map_cons, approvedPrecedents, if_neg (by simp [h row List.mem_cons_self]),
        ih fun r hr => h r (List.mem_cons_of_mem _ hr)]
      rfl

theorem approvedPrecedents_eq_ok {rows : List Precedent} :
    approvedPrecedents request rows = .ok approved ↔
      rows = approved.map .approved ∧ ∀ row ∈ approved, row.key.requester = request.requester := by
  refine ⟨fun h => ?_, fun ⟨hrows, hall⟩ => hrows ▸ approvedPrecedents_map hall⟩
  induction rows generalizing approved with
  | nil =>
      cases h
      exact ⟨rfl, by simp⟩
  | cons row rest ih =>
      cases row with
      | refused row => cases h
      | approved row =>
          rw [approvedPrecedents] at h
          split_ifs at h with hasks
          have hown : row.key.requester = request.requester := by simpa using hasks
          cases hrest : approvedPrecedents request rest with
          | error reason =>
              rw [hrest] at h
              cases h
          | ok others =>
              rw [hrest] at h
              cases h
              obtain ⟨rfl, hall⟩ := ih hrest
              exact ⟨rfl, List.forall_mem_cons.mpr ⟨hown, hall⟩⟩

/-- A row as the contract has it: its bounds are their own parse. -/
def ContractRow : Precedent → Prop
  | .approved row => capabilityConstraintsSchema row.constraints = some row.constraints
  | .refused _ => True

variable {constraints : CapabilityConstraints}

theorem tightestEnvelope_eq_some : tightestEnvelope approved = some constraints ↔
    ∃ envelope, tightestConstraints (approved.map ApprovedPrecedent.constraints) = some envelope ∧
      capabilityConstraintsSchema { envelope with delegationDepth := some 0 } = some constraints :=
  Option.bind_eq_some_iff

/-- What is issued may not be passed on, satisfies the schema and spends no more than any row. -/
theorem tightestEnvelope_bounds (h : tightestEnvelope approved = some constraints) :
    capabilityConstraintsSchema constraints = some constraints ∧
      constraints.delegationDepth = some 0 ∧
      ∀ row ∈ approved, ∀ n, row.constraints.maxUses = some n →
        ∃ n', constraints.maxUses = some n' ∧ n' ≤ n := by
  obtain ⟨envelope, htightest, hparse⟩ := tightestEnvelope_eq_some.mp h
  obtain ⟨-, purposes, rfl, -⟩ := capabilityConstraintsSchema_iff.mp hparse
  refine ⟨capabilityConstraintsSchema_idem hparse, rfl, fun row hrow n hn => ?_⟩
  exact (tightestConstraints_within htightest (List.mem_map_of_mem hrow)).2 n hn

/-- **It is within every row whose bounds are their own parse.** Parsing trims the purposes, so a
purpose that is not trimmed leaves the row that names it. -/
theorem tightestEnvelope_within (h : tightestEnvelope approved = some constraints)
    {row : ApprovedPrecedent} (hrow : row ∈ approved)
    (hvalid : ContractRow (.approved row)) :
    constraintsAreWithin constraints row.constraints = true := by
  obtain ⟨envelope, htightest, hparse⟩ := tightestEnvelope_eq_some.mp h
  obtain ⟨-, purposes, rfl, hpurposes⟩ := capabilityConstraintsSchema_iff.mp hparse
  obtain ⟨hwithin, -⟩ := tightestConstraints_within htightest (List.mem_map_of_mem hrow)
  refine constraintsAreWithin_iff.mpr ⟨fun allowed hallowed => ?_, hwithin.starts, hwithin.stops⟩
  obtain ⟨named, hnamed, hsub⟩ := hwithin.purposes allowed hallowed
  rw [show ({ envelope with delegationDepth := some 0 } : CapabilityConstraints).purposes =
    some named from hnamed] at hpurposes
  obtain ⟨parsed, hparsed, rfl⟩ := Option.map_eq_some_iff.mp hpurposes
  refine ⟨parsed, rfl, fun p hp => ?_⟩
  obtain ⟨q, hq, hqp⟩ := (of_arraySchema hparsed).2.2 p hp
  -- the row's purposes are trimmed already
  have hown : purposeSchema q = some q :=
    (arraySchema_eq_self_iff.mp (purposes_of_own hvalid hallowed)).2 q (hsub q hq)
  rw [hown] at hqp
  cases hqp
  exact hsub _ hq

end Approvals

/-! ## An allow -/

section Allow

variable [HostPlatform] {proposed : List Capability} {request : CapabilityRequest}
  {rows rows' : List Precedent} {approved : List ApprovedPrecedent} {common common' : AdmittedCommon}
  {decision : AdmittedAllow} {constraints : CapabilityConstraints}

/-- The capability is within a single one of these. -/
def WithinOne (owner : Address) (allowed : List Capability) (capability : Capability) : Prop :=
  ∃ a ∈ allowed, capabilityIsWithin capability a owner = true

/-- What an allow at these approvals passes: every rule, and the envelope it is given. -/
structure AllowRules (proposed : List Capability) (request : CapabilityRequest)
    (common : AdmittedCommon) (approved : List ApprovedPrecedent)
    (constraints : CapabilityConstraints) : Prop where
  requesters : ∀ row ∈ approved, row.key.requester = request.requester
  within : ∀ c ∈ proposed, ∀ row ∈ approved, WithinOne request.owner row.capabilities c
  asked : common.match = .fuzzy → ∀ c ∈ proposed, WithinOne request.owner request.capabilities c
  envelope : tightestEnvelope approved = some constraints

/-- An admitted allow, from the parts of it. -/
def allowOf (proposed : List Capability) (common : AdmittedCommon)
    (constraints : CapabilityConstraints) : AdmittedAllow :=
  { common with
    narrowed := decide (common.match = .fuzzy)
    capabilities := proposed
    constraints }

theorem admitAllow_of_rules (h : AllowRules proposed request common approved constraints) :
    admitAllow proposed request (approved.map .approved) common =
      .admitted (.allow (allowOf proposed common constraints)) := by
  have hwithin : (proposed.all fun capability => approved.all fun precedent =>
      precedent.capabilities.any fun allowed =>
        capabilityIsWithin capability allowed request.owner) = true := by
    simpa [WithinOne] using h.within
  have hasked : (decide (common.match = .fuzzy) && !proposed.all fun capability =>
      request.capabilities.any fun asked =>
        capabilityIsWithin capability asked request.owner) = false := by
    by_cases hfuzzy : common.match = .fuzzy
    · simpa [WithinOne, hfuzzy] using h.asked hfuzzy
    · simp [hfuzzy]
  unfold admitAllow
  rw [approvedPrecedents_map h.requesters]
  dsimp only
  rw [hwithin, hasked, h.envelope]
  rfl

/-- **The rules are what an admitted allow has passed.** -/
theorem admitAllow_eq_allow :
    admitAllow proposed request rows common = .admitted (.allow decision) ↔
      ∃ approved constraints, rows = approved.map .approved ∧
        AllowRules proposed request common approved constraints ∧
        decision = allowOf proposed common constraints := by
  constructor
  · intro h
    unfold admitAllow at h
    cases hrows : approvedPrecedents request rows with
    | error reason =>
        rw [hrows] at h
        cases h
    | ok approved =>
        rw [hrows] at h
        dsimp only at h
        split_ifs at h with hwithin hasked
        cases henvelope : tightestEnvelope approved with
        | none =>
            rw [henvelope] at h
            cases h
        | some constraints =>
            rw [henvelope] at h
            cases h
            obtain ⟨rfl, hrequesters⟩ := approvedPrecedents_eq_ok.mp hrows
            refine ⟨approved, constraints, rfl, ⟨hrequesters, ?_, fun hfuzzy => ?_, henvelope⟩, rfl⟩
            · simpa [WithinOne] using hwithin
            · simpa [WithinOne, hfuzzy] using hasked
  · rintro ⟨approved, constraints, rfl, hrules, rfl⟩
    exact admitAllow_of_rules hrules

theorem admitAllow_ne_deny {denied : AdmittedCommon} :
    admitAllow proposed request rows common ≠ .admitted (.deny denied) := by
  intro h
  unfold admitAllow at h
  cases hrows : approvedPrecedents request rows with
  | error reason =>
      rw [hrows] at h
      cases h
  | ok approved =>
      rw [hrows] at h
      dsimp only at h
      split_ifs at h
      cases henvelope : tightestEnvelope approved with
      | none =>
          rw [henvelope] at h
          cases h
      | some constraints =>
          rw [henvelope] at h
          cases h

/-! ## Order and repetition -/

/-- Over rows as the contract has them, parsing the tightest envelope changes nothing but the
depth. -/
theorem tightestEnvelope_contract (hrows : ∀ row ∈ approved, ContractRow (.approved row)) :
    tightestEnvelope approved = some constraints ↔
      ∃ envelope, tightestConstraints (approved.map ApprovedPrecedent.constraints) = some envelope ∧
        constraints = { envelope with delegationDepth := some 0 } := by
  rw [tightestEnvelope_eq_some]
  refine exists_congr fun envelope => and_congr_right fun htightest => ?_
  have hvalid := tightestConstraints_valid htightest
    (List.forall_mem_map.mpr fun row hrow => hrows row hrow) (le_refl 0)
  rw [hvalid, Option.some.injEq, eq_comm]

/-- The envelope does not depend on the order of the rows. -/
theorem tightestEnvelope_perm {approved' : List ApprovedPrecedent} (hperm : approved.Perm approved')
    (hrows : ∀ row ∈ approved, ContractRow (.approved row))
    (h : tightestEnvelope approved = some constraints) :
    ∃ constraints', tightestEnvelope approved' = some constraints' ∧
      SameEnvelope constraints constraints' := by
  obtain ⟨envelope, htightest, rfl⟩ := (tightestEnvelope_contract hrows).mp h
  obtain ⟨envelope', htightest', hsame⟩ := tightestConstraints_congr
    (fun c => (hperm.map ApprovedPrecedent.constraints).mem_iff) htightest
  refine ⟨_, (tightestEnvelope_contract fun row hrow => hrows row (hperm.mem_iff.mpr hrow)).mpr
    ⟨envelope', htightest', rfl⟩, ?_⟩
  exact ⟨hsame.purposes, hsame.starts, hsame.startsBound, hsame.stops, hsame.stopsBound, hsame.uses,
    rfl⟩

/-- Two allows of one reach: the same capabilities, narrowed alike, under one envelope. -/
structure SameReach (d d' : AdmittedAllow) : Prop where
  «match» : d.match = d'.match
  narrowed : d.narrowed = d'.narrowed
  capabilities : d.capabilities = d'.capabilities
  constraints : SameEnvelope d.constraints d'.constraints

/-- Two admissions that admit the same. -/
inductive SameAdmission : PrecedentAdmission → PrecedentAdmission → Prop
  | inadmissible (reason reason' : PrecedentInadmissibleReason) :
      SameAdmission (.inadmissible reason) (.inadmissible reason')
  | deny {d d' : AdmittedCommon} (h : d.match = d'.match) :
      SameAdmission (.admitted (.deny d)) (.admitted (.deny d'))
  | allow {d d' : AdmittedAllow} (h : SameReach d d') :
      SameAdmission (.admitted (.allow d)) (.admitted (.allow d'))

/-- An allow at some rows is an allow of the same reach at the same rows in another order. -/
theorem admitAllow_perm (hperm : rows.Perm rows') (hrows : ∀ row ∈ rows, ContractRow row)
    (hmatch : common.match = common'.match)
    (h : admitAllow proposed request rows common = .admitted (.allow decision)) :
    ∃ decision', admitAllow proposed request rows' common' = .admitted (.allow decision') ∧
      SameReach decision decision' := by
  obtain ⟨approved, constraints, rfl, hrules, rfl⟩ := admitAllow_eq_allow.mp h
  obtain ⟨approved', hsorted, rfl⟩ := exists_perm_map_eq hperm.symm
  obtain ⟨constraints', henvelope, hsame⟩ := tightestEnvelope_perm hsorted.symm
    (List.forall_mem_map.mp hrows) hrules.envelope
  have hrules' : AllowRules proposed request common' approved' constraints' :=
    { requesters := fun row hrow => hrules.requesters row (hsorted.mem_iff.mp hrow)
      within := fun c hc row hrow => hrules.within c hc row (hsorted.mem_iff.mp hrow)
      asked := fun hfuzzy => hrules.asked (hmatch.trans hfuzzy)
      envelope := henvelope }
  refine ⟨_, admitAllow_of_rules hrules', hmatch, ?_, rfl, hsame⟩
  show decide (common.match = .fuzzy) = decide (common'.match = .fuzzy)
  rw [hmatch]

theorem admitAllow_same (hperm : rows.Perm rows') (hrows : ∀ row ∈ rows, ContractRow row)
    (hmatch : common.match = common'.match) :
    SameAdmission (admitAllow proposed request rows common)
      (admitAllow proposed request rows' common') := by
  have hrows' : ∀ row ∈ rows', ContractRow row := fun row hrow => hrows row (hperm.mem_iff.mpr hrow)
  cases h : admitAllow proposed request rows common with
  | admitted decided =>
      cases decided with
      | deny denied => exact absurd h admitAllow_ne_deny
      | allow decision =>
          obtain ⟨decision', h', hsame⟩ := admitAllow_perm hperm hrows hmatch h
          rw [h']
          exact .allow hsame
  | inadmissible reason =>
      cases h' : admitAllow proposed request rows' common' with
      | inadmissible reason' => exact .inadmissible reason reason'
      | admitted decided =>
          cases decided with
          | deny denied => exact absurd h' admitAllow_ne_deny
          | allow decision =>
              obtain ⟨_, hallowed, _⟩ := admitAllow_perm hperm.symm hrows' hmatch.symm h'
              rw [h] at hallowed
              cases hallowed

theorem matchKind_perm (hperm : rows.Perm rows') :
    matchKind request rows = matchKind request rows' := by
  have hall : ∀ p : Precedent → Bool, rows.all p = rows'.all p := fun p => by
    rw [Bool.eq_iff_iff, List.all_eq_true, List.all_eq_true]
    exact forall_congr' fun row => by rw [hperm.mem_iff]
  unfold matchKind
  dsimp only
  rw [hall]

theorem admitCited_perm {proposal : AutoDecisionProposal} {matcher : JsString}
    {cited cited' : List JsString} (hperm : rows.Perm rows')
    (hrows : ∀ row ∈ rows, ContractRow row) :
    SameAdmission (admitCited proposal matcher cited rows)
      (admitCited proposal matcher cited' rows') := by
  have howners : rows.any (notThisOwner proposal.request) =
      rows'.any (notThisOwner proposal.request) := by
    rw [Bool.eq_iff_iff, List.any_eq_true, List.any_eq_true]
    exact exists_congr fun row => by rw [hperm.mem_iff]
  unfold admitCited
  dsimp only
  rw [howners, matchKind_perm hperm]
  split_ifs
  · exact .inadmissible _ _
  · cases proposal.proposed with
    | deny => exact .deny rfl
    | allow capabilities => exact admitAllow_same hperm hrows rfl

end Allow

/-! ## The decision -/

section Decision

variable [HostPlatform] {proposal : AutoDecisionProposal} {lookup : PrecedentLookup Id}
  {decision : AdmittedAllow}

/-- What is decided on the rows that were answered. -/
def admitLoaded (proposal : AutoDecisionProposal) (matcher : JsString) (cited : List JsString)
    (loaded : List Precedent) : PrecedentAdmission :=
  ((citedPrecedents loaded cited).map (admitCited proposal matcher cited)).getD
    (.inadmissible .precedentUnavailable)

omit [HostPlatform] in
theorem id_bind {α β : Type} (a : Id α) (f : α → Id β) : (a >>= f) = f a := rfl

theorem admitAutoDecision_answered {matcher : JsString} (hmatcher : proposal.matcher = some matcher)
    (hmarked : (trim matcher).length ≠ 0) (hcited : (distinct proposal.citedRequestIds).length ≠ 0)
    (hempty : ¬ proposal.proposed.isEmptyAllow = true) {loaded : List Precedent}
    (hload : lookup.load proposal.request.namespaceId (distinct proposal.citedRequestIds) =
      .fulfilled loaded) :
    admitAutoDecision proposal lookup =
      admitLoaded proposal matcher (distinct proposal.citedRequestIds) loaded := by
  unfold admitAutoDecision
  rw [hmatcher]
  dsimp only
  rw [if_neg hmarked, if_neg hcited, if_neg hempty, hload]
  rw [id_bind, admitLoaded]
  dsimp only
  cases citedPrecedents loaded (distinct proposal.citedRequestIds) <;> rfl

/-- What is behind an allow: the rows, in the order they were cited, and their decision. -/
theorem admitAutoDecision_allow
    (h : admitAutoDecision proposal lookup = .admitted (.allow decision)) :
    ∃ matcher loaded rows,
      lookup.load proposal.request.namespaceId (distinct proposal.citedRequestIds) =
        .fulfilled loaded ∧
      citedPrecedents loaded (distinct proposal.citedRequestIds) = some rows ∧
      admitCited proposal matcher (distinct proposal.citedRequestIds) rows =
        .admitted (.allow decision) := by
  cases hmatcher : proposal.matcher with
  | none =>
      rw [admitAutoDecision, hmatcher] at h
      cases h
  | some matcher =>
      have hguarded := h
      rw [admitAutoDecision, hmatcher] at hguarded
      dsimp only at hguarded
      -- the guards before the lookup answer at once
      split_ifs at hguarded with hmarked hcited hempty
      cases hload : lookup.load proposal.request.namespaceId (distinct proposal.citedRequestIds) with
      | rejected =>
          rw [hload] at hguarded
          cases hguarded
      | fulfilled loaded =>
          rw [admitAutoDecision_answered hmatcher hmarked hcited hempty hload, admitLoaded] at h
          cases hrows : citedPrecedents loaded (distinct proposal.citedRequestIds) with
          | none =>
              rw [hrows] at h
              cases h
          | some rows =>
              rw [hrows] at h
              exact ⟨matcher, loaded, rows, rfl, hrows, h⟩

theorem notThisOwner_eq_false {request : CapabilityRequest} {row : Precedent} :
    notThisOwner request row = false ↔
      row.key.namespaceId = request.namespaceId ∧ row.key.owner = request.owner := by
  simp [notThisOwner]

/-- The digest tells the question of a cited row from the request's, where they differ. -/
def NoCollision (request : CapabilityRequest) (loaded : List Precedent) : Prop :=
  ∀ row ∈ loaded, precedentKeyDigest row.key = precedentKeyDigest (precedentKey request) →
    canonicalJson (keyMaterial row.key) = canonicalJson (keyMaterial (precedentKey request))

/-- What bounds an allow, by the rows that were answered. -/
structure BoundedBy (proposal : AutoDecisionProposal) (loaded : List Precedent)
    (decision : AdmittedAllow) : Prop where
  /-- The rows are those that were cited, each once. -/
  cited : (loaded.map Precedent.requestId).Perm (distinct proposal.citedRequestIds)
  approvals : ∀ row ∈ loaded, ∃ approved, row = .approved approved ∧
    approved.key.namespaceId = proposal.request.namespaceId ∧
    approved.key.owner = proposal.request.owner ∧
    approved.key.requester = proposal.request.requester
  reach : ∀ context : AccessContext, context.owner = proposal.request.owner →
    ∀ asked : CapabilityRequirement, ∀ c ∈ decision.capabilities,
      capabilityMatches c asked context = true →
        ∀ approved, .approved approved ∈ loaded →
          ∃ allowed ∈ approved.capabilities, capabilityMatches allowed asked context = true
  valid : capabilityConstraintsSchema decision.constraints = some decision.constraints
  depth : decision.constraints.delegationDepth = some 0
  uses : ∀ approved, .approved approved ∈ loaded → ∀ n, approved.constraints.maxUses = some n →
    ∃ n', decision.constraints.maxUses = some n' ∧ n' ≤ n
  envelope : ∀ approved, .approved approved ∈ loaded → ContractRow (.approved approved) →
    constraintsAreWithin decision.constraints approved.constraints = true
  narrowed : NoCollision proposal.request loaded →
    (∃ row ∈ loaded, ¬ SameQuestion row.key (precedentKey proposal.request)) →
      decision.narrowed = true ∧
        ∀ c ∈ decision.capabilities,
          WithinOne proposal.request.owner proposal.request.capabilities c

/-- What is within one of these is matched by one of these wherever it is matched. -/
theorem WithinOne.matched {owner : Address} {allowed : List Capability} {c : Capability}
    (h : WithinOne owner allowed c) {context : AccessContext} (howner : context.owner = owner)
    {asked : CapabilityRequirement} (hmatch : capabilityMatches c asked context = true) :
    ∃ a ∈ allowed, capabilityMatches a asked context = true := by
  obtain ⟨a, ha, hwithin⟩ := h
  refine ⟨a, ha, capabilityMatches_iff.mpr ?_⟩
  subst howner
  exact permits_subset_of_within hwithin (capabilityMatches_iff.mp hmatch)

/-- Evidence is exact only when every row asks the request's question. -/
theorem sameQuestion_of_exact {request : CapabilityRequest} {loaded rows : List Precedent}
    (hcollision : NoCollision request loaded) (hperm : rows.Perm loaded)
    (h : matchKind request rows ≠ .fuzzy) :
    ∀ row ∈ loaded, SameQuestion row.key (precedentKey request) := by
  intro row hrow
  unfold matchKind at h
  dsimp only at h
  split_ifs at h with hall
  swap
  · exact absurd rfl h
  have hdigest := List.all_eq_true.mp hall row (hperm.mem_iff.mpr hrow)
  exact sameQuestion_of_text (hcollision row hrow (of_decide_eq_true hdigest))

/-- **Every cited decision bounds an allow.** -/
theorem boundedBy_of_admitted
    (h : admitAutoDecision proposal lookup = .admitted (.allow decision)) :
    ∃ loaded, lookup.load proposal.request.namespaceId (distinct proposal.citedRequestIds) =
        .fulfilled loaded ∧ BoundedBy proposal loaded decision := by
  obtain ⟨matcher, loaded, rows, hload, hcited, hadmit⟩ := admitAutoDecision_allow h
  obtain ⟨hperm, hids⟩ := (citedPrecedents_iff (nodup_distinct _)).mp hcited
  unfold admitCited at hadmit
  dsimp only at hadmit
  split_ifs at hadmit with howners
  cases hproposed : proposal.proposed with
  | deny =>
      rw [hproposed] at hadmit
      cases hadmit
  | allow capabilities =>
      rw [hproposed] at hadmit
      obtain ⟨approved, constraints, rfl, hrules, rfl⟩ := admitAllow_eq_allow.mp hadmit
      have hmem : ∀ row, .approved row ∈ loaded → row ∈ approved := fun row hrow => by
        obtain ⟨row', hrow', heq⟩ := List.mem_map.mp (hperm.mem_iff.mpr hrow)
        cases heq
        exact hrow'
      obtain ⟨hvalid, hdepth, huses⟩ := tightestEnvelope_bounds hrules.envelope
      refine ⟨loaded, hload, ?_⟩
      exact
        { cited := hids ▸ (hperm.map _).symm
          approvals := fun row hrow => by
            obtain ⟨row', hrow', rfl⟩ := List.mem_map.mp (hperm.mem_iff.mpr hrow)
            have hown := notThisOwner_eq_false.mp (Bool.eq_false_iff.mpr fun hother =>
              howners (List.any_eq_true.mpr ⟨_, List.mem_map_of_mem hrow', hother⟩))
            exact ⟨row', rfl, hown.1, hown.2, hrules.requesters row' hrow'⟩
          reach := fun context howner asked c hc hmatch row hrow =>
            (hrules.within c hc row (hmem row hrow)).matched howner hmatch
          valid := hvalid
          depth := hdepth
          uses := fun row hrow => huses row (hmem row hrow)
          envelope := fun row hrow => tightestEnvelope_within hrules.envelope (hmem row hrow)
          narrowed := fun hcollision ⟨row, hrow, hother⟩ => by
            have hfuzzy : matchKind proposal.request (approved.map .approved) = .fuzzy := by
              by_contra hexact
              exact hother (sameQuestion_of_exact hcollision hperm hexact row hrow)
            exact ⟨decide_eq_true hfuzzy, hrules.asked hfuzzy⟩ }

/-- Two answers of a lookup with the same rows. -/
inductive SameAnswer : Settled (List Precedent) → Settled (List Precedent) → Prop
  | rejected : SameAnswer .rejected .rejected
  | fulfilled {loaded loaded' : List Precedent} (h : loaded.Perm loaded') :
      SameAnswer (.fulfilled loaded) (.fulfilled loaded')

omit [HostPlatform] in
theorem citedPrecedents_none_perm {loaded loaded' : List Precedent} {cited cited' : List JsString}
    (hcited : cited.Nodup) (hloaded : loaded.Perm loaded') (hperm : cited.Perm cited')
    (h : citedPrecedents loaded cited = none) : citedPrecedents loaded' cited' = none := by
  cases h' : citedPrecedents loaded' cited' with
  | none => rfl
  | some rows' =>
      obtain ⟨_, hrows, _⟩ :=
        citedPrecedents_perm (hperm.nodup_iff.mp hcited) hloaded.symm hperm.symm h'
      rw [h] at hrows
      cases hrows

/-- **Citing in another order, or one precedent twice, and answering in another order admit the
same.** -/
theorem admitAutoDecision_reordered {cited : List JsString}
    (hcited : ∀ id, id ∈ proposal.citedRequestIds ↔ id ∈ cited) {lookup' : PrecedentLookup Id}
    (hanswer : SameAnswer
      (lookup.load proposal.request.namespaceId (distinct proposal.citedRequestIds))
      (lookup'.load proposal.request.namespaceId (distinct cited)))
    (hrows : ∀ loaded,
      lookup.load proposal.request.namespaceId (distinct proposal.citedRequestIds) =
        .fulfilled loaded → ∀ row ∈ loaded, ContractRow row) :
    SameAdmission (admitAutoDecision proposal lookup)
      (admitAutoDecision { proposal with citedRequestIds := cited } lookup') := by
  have hperm := distinct_perm hcited
  unfold admitAutoDecision
  cases proposal.matcher with
  | none => exact .inadmissible _ _
  | some matcher =>
      dsimp only
      rw [hperm.length_eq]
      split_ifs
      · exact .inadmissible _ _
      · exact .inadmissible _ _
      · exact .inadmissible _ _
      · generalize hload : lookup.load proposal.request.namespaceId
          (distinct proposal.citedRequestIds) = answer at hanswer hrows ⊢
        generalize lookup'.load proposal.request.namespaceId (distinct cited) = answer' at hanswer ⊢
        rw [id_bind, id_bind]
        cases hanswer with
        | rejected => exact .inadmissible _ _
        | @fulfilled loaded loaded' hloaded =>
            dsimp only
            cases hfound : citedPrecedents loaded (distinct proposal.citedRequestIds) with
            | none =>
                rw [citedPrecedents_none_perm (nodup_distinct _) hloaded hperm hfound]
                exact .inadmissible _ _
            | some rows =>
                obtain ⟨rows', hfound', hsame⟩ :=
                  citedPrecedents_perm (nodup_distinct _) hloaded hperm hfound
                have hvalid : ∀ row ∈ rows, ContractRow row := fun row hrow =>
                  hrows loaded rfl row
                    (((citedPrecedents_iff (nodup_distinct _)).mp hfound).1.mem_iff.mp hrow)
                rw [hfound']
                exact admitCited_perm hsame hvalid

/-- **Admission is bounded by every decision cited.** An allow is bounded by each of the rows, which
are exactly those that were cited, and what is admitted depends on neither their order nor on that
of the citations, nor on a citation being repeated. -/
theorem admission_bounded_by_precedents (proposal : AutoDecisionProposal)
    (lookup : PrecedentLookup Id) :
    (∀ decision, admitAutoDecision proposal lookup = .admitted (.allow decision) →
      ∃ loaded, lookup.load proposal.request.namespaceId (distinct proposal.citedRequestIds) =
        .fulfilled loaded ∧ BoundedBy proposal loaded decision) ∧
    ∀ (cited : List JsString) (lookup' : PrecedentLookup Id),
      (∀ id, id ∈ proposal.citedRequestIds ↔ id ∈ cited) →
      SameAnswer (lookup.load proposal.request.namespaceId (distinct proposal.citedRequestIds))
        (lookup'.load proposal.request.namespaceId (distinct cited)) →
      (∀ loaded,
        lookup.load proposal.request.namespaceId (distinct proposal.citedRequestIds) =
          .fulfilled loaded → ∀ row ∈ loaded, ContractRow row) →
      SameAdmission (admitAutoDecision proposal lookup)
        (admitAutoDecision { proposal with citedRequestIds := cited } lookup') :=
  ⟨fun _ h => boundedBy_of_admitted h, fun _ _ hcited hanswer hrows =>
    admitAutoDecision_reordered hcited hanswer hrows⟩

end Decision

namespace Sample

/-- The documents, with some actions. -/
def docs (actions : List JsString) : Capability where
  resource := { «namespace» := "files", path := ["docs"], owner := none }
  actions
  scope := .descendants

/-- A request to read and list the documents. -/
def request : CapabilityRequest where
  id := "capreq-now"
  namespaceId := "n"
  requester := .agent "agent"
  owner := .human "owner"
  capabilities := [docs ["read", "list"]]
  purpose := "work"
  constraints := none
  requestedAt := "2026-01-01T00:00:00Z"
  metadata := none

/-- A human's approval of the question, with its actions as they were listed. -/
def approval (requestId : JsString) (actions : List JsString) (constraints : CapabilityConstraints) :
    ApprovedPrecedent where
  requestId
  key := { precedentKey request with capabilities := [docs actions] }
  capabilities := [docs ["read", "list"]]
  constraints

/-- A proposal to allow reading. -/
def proposal (citedRequestIds : List JsString) : AutoDecisionProposal where
  request
  citedRequestIds
  proposed := .allow [docs ["read"]]
  matcher := some "matcher-1"

/-- A lookup of approved rows. -/
def answering (rows : List ApprovedPrecedent) : PrecedentLookup Id where
  load _ _ := .fulfilled (rows.map .approved)

/-- Bounds that were stored with a purpose that is not trimmed. -/
def untrimmed : CapabilityConstraints :=
  { CapabilityConstraints.unbounded with purposes := some [" work"] }

/-- Bounds that end at an instant. -/
def endingAt (expiresAt : JsString) : CapabilityConstraints :=
  { CapabilityConstraints.unbounded with expiresAt := some expiresAt }

/-- A host that reads a date without a time, as the engine does and the schema does not. -/
@[reducible]
def datePlatform : HostPlatform :=
  { Reference.instHostPlatform with
    dateParse := fun s =>
      Reference.dateParse (if s = "2027-01-01" then "2027-01-01T00:00:00Z" else s) }

/-- The same bounds in either spelling of one instant. -/
def dated : List ApprovedPrecedent :=
  [approval "a" ["read", "list"] (endingAt "2027-01-01"),
    approval "b" ["read", "list"] (endingAt "2027-01-01T00:00:00Z")]

end Sample

open scoped SharedOS.Foundation.Reference in
theorem admission_bounded_by_precedents_docs :
    ∃ decision loaded,
      admitAutoDecision (Sample.proposal ["b", "b"])
        (Sample.answering [Sample.approval "b" ["read", "list"]
          (Sample.endingAt "2027-01-01T00:00:00Z")]) = .admitted (.allow decision) ∧
      BoundedBy (Sample.proposal ["b", "b"]) loaded decision := by
  obtain ⟨loaded, -, hbounded⟩ := (admission_bounded_by_precedents _ _).1 _
    (show admitAutoDecision (Sample.proposal ["b", "b"])
      (Sample.answering [Sample.approval "b" ["read", "list"]
        (Sample.endingAt "2027-01-01T00:00:00Z")]) = .admitted (.allow _) from rfl)
  exact ⟨_, loaded, rfl, hbounded⟩

open scoped SharedOS.Foundation.Reference in
/-- Rows that are not as the contract has them: a purpose is trimmed out of the row that named it,
and of two spellings of one instant the first that is cited decides whether there is an envelope.
And a key with its actions in another order is hashed to one text with the request's. -/
theorem rows_outside_contract :
    (∃ decision,
      admitAutoDecision (Sample.proposal ["p"])
        (Sample.answering [Sample.approval "p" ["read", "list"] Sample.untrimmed]) =
          .admitted (.allow decision) ∧
      constraintsAreWithin decision.constraints Sample.untrimmed = false) ∧
    (∃ decision,
      admitAutoDecision (Sample.proposal ["p"])
        (Sample.answering [Sample.approval "p" ["list", "read"]
          CapabilityConstraints.unbounded]) = .admitted (.allow decision) ∧
      decision.narrowed = false ∧
      (Sample.approval "p" ["list", "read"] CapabilityConstraints.unbounded).key ≠
        precedentKey Sample.request ∧
      keyMaterial (Sample.approval "p" ["list", "read"] CapabilityConstraints.unbounded).key =
        keyMaterial (precedentKey Sample.request)) ∧
    @admitAutoDecision Sample.datePlatform Id _ (Sample.proposal ["a", "b"])
        (Sample.answering Sample.dated) = .inadmissible .envelopeUnsatisfiable ∧
    ∃ decision,
      @admitAutoDecision Sample.datePlatform Id _ (Sample.proposal ["b", "a"])
        (Sample.answering Sample.dated) = .admitted (.allow decision) := by
  refine ⟨⟨_, rfl, rfl⟩, ⟨_, rfl, rfl, ?_, ?_⟩, rfl, _, rfl⟩
  · intro h
    exact absurd (congrArg PrecedentKey.capabilities h) (by decide)
  · have hnormal : normalizedCapability (.human "owner") (Sample.docs ["list", "read"]) =
        normalizedCapability (.human "owner") (Sample.docs ["read", "list"]) := by decide
    show keyMaterial { precedentKey Sample.request with
      capabilities := [Sample.docs ["list", "read"]] } = _
    unfold keyMaterial normalizedCapabilities
    simp only [List.map_cons, List.map_nil, precedentKey, Sample.request, hnormal]

end SharedOS.Precedent
