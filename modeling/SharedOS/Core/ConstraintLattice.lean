/-
SharedOS.Core.ConstraintLattice — the tightest envelope is a greatest lower bound.

Constraint sets are ordered on five fields: purposes by inclusion, the two edges of the window by
instant, the two budgets by size, and an absent bound lies above every stated one.
`tightestConstraints` computes meets of that order. What it answers is valid and within every set,
whatever is valid and within every set is within it, and it answers nothing exactly when nothing
valid is within every set.
-/
import SharedOS.Core.ConstraintMeet

namespace SharedOS.Core

open SharedOS.Foundation SharedOS.Contracts

/-- Where the outer budget is stated, the inner one is too, and is no larger. -/
def CountWithin (inner outer : Option Int) : Prop :=
  ∀ m, outer = some m → ∃ m', inner = some m' ∧ m' ≤ m

/-- A set of bounds the schema accepts. -/
def ValidConstraints [HostPlatform] (c : CapabilityConstraints) : Prop :=
  (capabilityConstraintsSchema c).isSome

/-- The timestamps that are stated can be read. -/
structure ReadableTimestamps [HostPlatform] (c : CapabilityConstraints) : Prop where
  starts : ∀ s, c.notBefore = some s → ∃ t, HostPlatform.dateParse s = some t
  stops : ∀ s, c.expiresAt = some s → ∃ t, HostPlatform.dateParse s = some t

/-- Containment on all five fields. The code compares the first three, and the budgets where they
are counted. -/
structure WithinOnEveryField [HostPlatform] (inner outer : CapabilityConstraints) : Prop where
  envelope : constraintsAreWithin inner outer = true
  uses : CountWithin inner.maxUses outer.maxUses
  depth : CountWithin inner.delegationDepth outer.delegationDepth

section Lattice

variable [HostPlatform] {sets : List CapabilityConstraints} {r e : CapabilityConstraints}
  {met : EnvelopeMeet}

/-! ## Below every set is below what is kept -/

omit [HostPlatform] in
theorem Tightest.greatest_count {field : CapabilityConstraints → Option Int} {kept : Option Int}
    (h : Tightest .stop id (sets.filterMap field) kept) {inner : Option Int}
    (hall : ∀ c ∈ sets, CountWithin inner (field c)) : CountWithin inner kept := by
  rintro m rfl
  obtain ⟨c, hc, hm⟩ := List.mem_filterMap.mp h.1
  exact hall c hc m hm

theorem Tightest.greatest_instant {edge : WindowEdge}
    {field : CapabilityConstraints → Option JsString} {kept : Option (JsString × Int)}
    (h : Tightest edge Prod.snd (instantsOf field sets) kept) {inner : Option JsString}
    (hread : ∀ s, inner = some s → ∃ t, HostPlatform.dateParse s = some t)
    (hall : ∀ c ∈ sets, BoundWithin edge inner (field c)) :
    BoundWithin edge inner (kept.map Prod.fst) where
  readable := hread
  tightened s hs := by
    obtain ⟨⟨s', t⟩, hkept, rfl⟩ := Option.map_eq_some_iff.mp hs
    obtain ⟨-, c, hc, hfield⟩ := h.readable hkept
    exact (hall c hc).tightened _ hfield

omit [HostPlatform] in
theorem PurposesMet.greatest {kept : Option (List JsString)} (h : PurposesMet sets kept)
    {inner : Option (List JsString)}
    (hall : ∀ c ∈ sets, ∀ allowed, c.purposes = some allowed →
      ∃ ps, inner = some ps ∧ ∀ p ∈ ps, p ∈ allowed) {ps : List JsString} (hkept : kept = some ps) :
    ∃ qs, inner = some qs ∧ ∀ q ∈ qs, q ∈ ps := by
  rw [hkept] at h
  obtain ⟨-, ⟨c, hc, hnamed⟩, hmem⟩ := h
  obtain ⟨allowed, hallowed⟩ := Option.isSome_iff_exists.mp hnamed
  obtain ⟨qs, hqs, -⟩ := hall c hc allowed hallowed
  refine ⟨qs, hqs, ?_⟩
  intro q hq
  refine (hmem q).mpr ?_
  intro d hd allowed' hallowed'
  -- every set that names purposes admits those of the inner set
  obtain ⟨qs', hqs', hsub⟩ := hall d hd allowed' hallowed'
  rw [hqs] at hqs'
  cases hqs'
  exact hsub q hq

/-- Below every set, and readable, is below the bounds that were met. -/
theorem Meets.greatest (hmeets : Meets sets met) (hread : ReadableTimestamps e)
    (hall : ∀ c ∈ sets, constraintsAreWithin e c = true) : EnvelopeWithin e met.envelope where
  purposes allowed hallowed := by
    obtain ⟨ps, hkept, rfl⟩ := Option.map_eq_some_iff.mp hallowed
    obtain ⟨qs, hqs, hsub⟩ := hmeets.purposes.greatest
      (fun c hc => (constraintsAreWithin_iff.mp (hall c hc)).purposes) hkept
    refine ⟨qs, hqs, ?_⟩
    intro q hq
    exact mem_sortStrings.mpr (hsub q hq)
  starts := hmeets.starts.greatest_instant hread.starts
    fun c hc => (constraintsAreWithin_iff.mp (hall c hc)).starts
  stops := hmeets.stops.greatest_instant hread.stops
    fun c hc => (constraintsAreWithin_iff.mp (hall c hc)).stops

/-- Whatever is within some set can be read. -/
theorem readable_of_within {c : CapabilityConstraints} (h : constraintsAreWithin e c = true) :
    ReadableTimestamps e :=
  ⟨(constraintsAreWithin_iff.mp h).starts.readable, (constraintsAreWithin_iff.mp h).stops.readable⟩

/-! ## What is answered is valid, and nothing valid lies below when nothing is answered -/

theorem purposes_of_valid (h : ValidConstraints e) {ps : List JsString}
    (hps : e.purposes = some ps) :
    (1 ≤ ps.length ∧ ps.length ≤ 64) ∧ ∀ p ∈ ps, (purposeSchema p).isSome :=
  arraySchema_isSome_iff.mp ((capabilityConstraintsSchema_isSome_iff.mp h).2 ps hps)

theorem Meets.valid (hmeets : Meets sets met) (hnonempty : met.purposes ≠ some [])
    (hinverted : met.inverted = false) (hsets : ∀ c ∈ sets, ValidConstraints c) :
    ValidConstraints met.envelope := by
  refine capabilityConstraintsSchema_isSome_iff.mpr ⟨?_, ?_⟩
  · exact hmeets.boundsValid hinverted fun c hc =>
      (capabilityConstraintsSchema_isSome_iff.mp (hsets c hc)).1
  · intro ps hps
    obtain ⟨-, c, hc, qs, hqs, hsub⟩ := hmeets.purposes_from hps
    refine arraySchema_isSome_iff.mpr ⟨?_, ?_⟩
    · exact hmeets.purposes_length hnonempty
        (fun c hc qs hqs => (purposes_of_valid (hsets c hc) hqs).1.2) hps
    · intro p hp
      exact (purposes_of_valid (hsets c hc) hqs).2 p (hsub p hp)

/-- Nothing valid is within bounds that leave no purpose. -/
theorem purposes_ne_nil_of_valid_within (hvalid : ValidConstraints e)
    (hwithin : EnvelopeWithin e met.envelope) : met.purposes ≠ some [] := by
  intro hempty
  have hnamed : met.envelope.purposes = some (sortStrings []) := by
    show met.purposes.map sortStrings = _
    rw [hempty]
    rfl
  obtain ⟨ps, hps, hsub⟩ := hwithin.purposes _ hnamed
  have hlength := (purposes_of_valid hvalid hps).1.1
  obtain ⟨p, hp⟩ := List.exists_mem_of_length_pos (show 0 < ps.length by omega)
  exact absurd (mem_sortStrings.mp (hsub p hp)) List.not_mem_nil

/-- Nothing valid is within a window that starts past its end. -/
theorem not_inverted_of_valid_within (hmeets : Meets sets met) (hvalid : ValidConstraints e)
    (hwithin : EnvelopeWithin e met.envelope) : met.inverted = false := by
  rw [← Bool.not_eq_true, inverted_iff]
  rintro ⟨start, stop, hstart, hstop, hlt⟩
  obtain ⟨⟨s, _⟩, hs, rfl⟩ := Option.map_eq_some_iff.mp hstart
  obtain ⟨⟨s', _⟩, hs', rfl⟩ := Option.map_eq_some_iff.mp hstop
  have hparse := (hmeets.starts.readable hs).1
  have hparse' := (hmeets.stops.readable hs').1
  obtain ⟨t, ht, u, u', hu, hu', htight⟩ := hwithin.starts.tightened s
    (show met.notBefore.map Prod.fst = some s by rw [hs]; rfl)
  obtain ⟨t', ht', v, v', hv, hv', htight'⟩ := hwithin.stops.tightened s'
    (show met.expiresAt.map Prod.fst = some s' by rw [hs']; rfl)
  -- the narrower window starts no earlier and ends no later, so it is inverted as well
  have hlate : t ≤ u' := htight
  have hearly : v' ≤ t' := htight'
  rw [hparse, Option.some.injEq] at ht
  rw [hparse', Option.some.injEq] at ht'
  have hwindow := (capabilityConstraintsSchema_isSome_iff.mp hvalid).1.window
  unfold startsAfterEnd at hwindow
  rw [hu, hv, Option.bind_some, Option.bind_some, hu', hv'] at hwindow
  have hge : u' ≤ v' := by simpa using hwindow
  dsimp only at hlt
  omega

/-! ## The meet -/

/-- **The greatest lower bound**: valid, within every set on all five fields, and no narrower than
any valid set that is. Where no set is there to be within, a set whose timestamps cannot be read is
not compared. -/
structure IsMeet (sets : List CapabilityConstraints) (r : CapabilityConstraints) : Prop where
  valid : ValidConstraints r
  within : ∀ c ∈ sets, WithinOnEveryField r c
  greatest : ∀ e, ValidConstraints e → (sets = [] → ReadableTimestamps e) →
    (∀ c ∈ sets, WithinOnEveryField e c) → WithinOnEveryField e r

theorem tightestConstraints_isMeet (hvalid : ∀ c ∈ sets, ValidConstraints c)
    (h : tightestConstraints sets = some r) : IsMeet sets r := by
  obtain ⟨met, hmet, hnonempty, hinverted, rfl⟩ := tightestConstraints_eq_some.mp h
  have hmeets := foldlM_meetStep hmet
  refine ⟨hmeets.valid hnonempty hinverted hvalid, ?_, ?_⟩
  · intro c hc
    obtain ⟨hwithin, -⟩ := tightestConstraints_within h hc
    exact ⟨constraintsAreWithin_iff.mpr hwithin, fun m hm => hmeets.uses.count_le hc hm,
      fun m hm => hmeets.depth.count_le hc hm⟩
  · intro e hvalid hread hall
    have hread' : ReadableTimestamps e := by
      cases sets with
      | nil => exact hread rfl
      | cons c rest => exact readable_of_within (hall c List.mem_cons_self).envelope
    exact ⟨constraintsAreWithin_iff.mpr (hmeets.greatest hread' fun c hc => (hall c hc).envelope),
      hmeets.uses.greatest_count fun c hc => (hall c hc).uses,
      hmeets.depth.greatest_count fun c hc => (hall c hc).depth⟩

/-- Something valid within every set is something to answer. -/
theorem tightestConstraints_isSome (hreadable : ∀ c ∈ sets, ReadableTimestamps c)
    (hvalid : ValidConstraints e) (hall : ∀ c ∈ sets, constraintsAreWithin e c = true) :
    (tightestConstraints sets).isSome := by
  cases sets with
  | nil => rfl
  | cons c rest =>
      obtain ⟨met, hmet⟩ := foldlM_meetStep_isSome
        (fun c hc => (hreadable c hc).starts) (fun c hc => (hreadable c hc).stops)
      have hmeets := foldlM_meetStep hmet
      have hwithin := hmeets.greatest (readable_of_within (hall c List.mem_cons_self)) hall
      exact Option.isSome_iff_exists.mpr ⟨_, tightestConstraints_eq_some.mpr
        ⟨met, hmet, purposes_ne_nil_of_valid_within hvalid hwithin,
          not_inverted_of_valid_within hmeets hvalid hwithin, rfl⟩⟩

/-- **The tightest envelope is the meet of the envelope order.** -/
theorem tightestConstraints_is_meet (hvalid : ∀ c ∈ sets, ValidConstraints c)
    (hreadable : ∀ c ∈ sets, ReadableTimestamps c) :
    (∀ r, tightestConstraints sets = some r → IsMeet sets r) ∧
    (tightestConstraints sets = none ↔
      ∀ e, ValidConstraints e → ¬ ∀ c ∈ sets, constraintsAreWithin e c = true) ∧
    (tightestConstraints sets = none ↔
      ∀ e, ValidConstraints e → ¬ ∀ c ∈ sets, WithinOnEveryField e c) ∧
    ∀ sets', (∀ c, c ∈ sets' ↔ c ∈ sets) →
      Option.Rel SameEnvelope (tightestConstraints sets) (tightestConstraints sets') := by
  have hmeet : ∀ r, tightestConstraints sets = some r → IsMeet sets r :=
    fun r h => tightestConstraints_isMeet hvalid h
  have hnone : tightestConstraints sets = none →
      ∀ e, ValidConstraints e → ¬ ∀ c ∈ sets, constraintsAreWithin e c = true := by
    intro h e he hall
    have hsome := tightestConstraints_isSome hreadable he hall
    rw [h] at hsome
    cases hsome
  have hsome : (∀ e, ValidConstraints e → ¬ ∀ c ∈ sets, WithinOnEveryField e c) →
      tightestConstraints sets = none := by
    intro h
    -- each list's meet is one of the other, so they stand or fall together
    cases hanswer : tightestConstraints sets with
    | none => rfl
    | some r => exact absurd (hmeet r hanswer).within (h r (hmeet r hanswer).valid)
  refine ⟨hmeet, ⟨hnone, ?_⟩, ⟨?_, hsome⟩, ?_⟩
  · intro h
    exact hsome fun e he hall => h e he fun c hc => (hall c hc).envelope
  · intro h e he hall
    exact hnone h e he fun c hc => (hall c hc).envelope
  · intro sets' hmem
    cases hanswer : tightestConstraints sets with
    | some r =>
        obtain ⟨r', hr', hsame⟩ := tightestConstraints_congr (fun c => (hmem c).symm) hanswer
        rw [hr']
        exact .some hsame
    | none =>
        cases hanswer' : tightestConstraints sets' with
        | none => exact .none
        | some r' =>
            obtain ⟨r, hr, -⟩ := tightestConstraints_congr hmem hanswer'
            rw [hanswer] at hr
            cases hr

end Lattice

namespace Sample

/-- Two approvals of one month for overlapping purposes, one of them three uses deep. -/
def approvals : List CapabilityConstraints :=
  [{ CapabilityConstraints.unbounded with
      purposes := some ["review", "audit"]
      expiresAt := some "2026-02-01T00:00:00Z" },
    { CapabilityConstraints.unbounded with
      purposes := some ["audit", "share"]
      notBefore := some "2026-01-01T00:00:00Z"
      maxUses := some 3 }]

end Sample

open scoped SharedOS.Foundation.Reference in
theorem tightestConstraints_is_meet_approvals :
    ((∀ r, tightestConstraints Sample.approvals = some r → IsMeet Sample.approvals r) ∧
      (tightestConstraints Sample.approvals = none ↔ ∀ e, ValidConstraints e →
        ¬ ∀ c ∈ Sample.approvals, constraintsAreWithin e c = true) ∧
      (tightestConstraints Sample.approvals = none ↔ ∀ e, ValidConstraints e →
        ¬ ∀ c ∈ Sample.approvals, WithinOnEveryField e c) ∧
      ∀ sets', (∀ c, c ∈ sets' ↔ c ∈ Sample.approvals) →
        Option.Rel SameEnvelope (tightestConstraints Sample.approvals)
          (tightestConstraints sets')) ∧
    tightestConstraints Sample.approvals = some
      { purposes := some ["audit"]
        notBefore := some "2026-01-01T00:00:00Z"
        expiresAt := some "2026-02-01T00:00:00Z"
        maxUses := some 3
        delegationDepth := none } := by
  have hread : ∀ c ∈ Sample.approvals, ReadableTimestamps c := by
    intro c hc
    rcases List.mem_cons.mp hc with rfl | hc
    · refine ⟨fun s hs => (by cases hs), ?_⟩
      rintro s ⟨⟩
      exact ⟨_, rfl⟩
    · obtain rfl := List.mem_singleton.mp hc
      refine ⟨?_, fun s hs => (by cases hs)⟩
      rintro s ⟨⟩
      exact ⟨_, rfl⟩
  refine ⟨tightestConstraints_is_meet ?_ hread, by decide +kernel⟩
  show ∀ c ∈ Sample.approvals, (capabilityConstraintsSchema c).isSome = true
  decide +kernel

end SharedOS.Core
