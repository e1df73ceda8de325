/-
SharedOS.Core.ConstraintMeet — the tightest envelope that every set of bounds admits.

The code walks the sets once and keeps, for each field, the tightest bound seen so far. What it
keeps is a meet: it is within every set it was taken over (`tightestConstraints_within`), and it
depends on the sets only as a collection (`tightestConstraints_congr`), up to the spelling of a
timestamp, since of two spellings of one instant the first is kept.
-/
import Mathlib.Data.List.Induction
import SharedOS.Core.Constraints
import SharedOS.Foundation.Listing

namespace SharedOS.Core

open SharedOS.Foundation SharedOS.Contracts

/-- `[...new Set(items)]`. -/
def distinct {α : Type} [DecidableEq α] (items : List α) : List α := items.foldl (setByKey id) []

@[simp] theorem mem_distinct {α : Type} [DecidableEq α] {items : List α} {x : α} :
    x ∈ distinct items ↔ x ∈ items := by
  rw [distinct, mem_foldl_setByKey Function.injective_id]
  simp

theorem nodup_distinct {α : Type} [DecidableEq α] (items : List α) : (distinct items).Nodup :=
  nodup_foldl_setByKey Function.injective_id List.nodup_nil

/-! ## The walk -/

/-- The bounds met so far, each timestamp with its instant. -/
structure EnvelopeMeet where
  purposes : Option (List JsString)
  notBefore : Option (JsString × Int)
  expiresAt : Option (JsString × Int)
  maxUses : Option Int
  delegationDepth : Option Int

/-- Before any set is met. -/
def EnvelopeMeet.start : EnvelopeMeet where
  purposes := none
  notBefore := none
  expiresAt := none
  maxUses := none
  delegationDepth := none

/-- Whether an instant is strictly tighter than another at this edge. -/
def WindowEdge.tighter : WindowEdge → Int → Int → Bool
  | .start, a, b => b < a
  | .stop, a, b => a < b

/-- A first bound, or the tighter of two, the earlier one on a tie. -/
def keepTightest {α : Type} (edge : WindowEdge) (key : α → Int) (current : Option α) (bound : α) :
    α :=
  match current with
  | none => bound
  | some current => if edge.tighter (key bound) (key current) then bound else current

/-- The purposes of one set more. -/
def meetPurposes (current purposes : Option (List JsString)) : Option (List JsString) :=
  match purposes with
  | none => current
  | some purposes =>
    let allowed := distinct purposes
    match current with
    | none => some allowed
    | some current => some (current.filter allowed.contains)

/-- `Math.min`, over the bounds that are present. -/
def meetCount (current bound : Option Int) : Option Int :=
  match bound with
  | none => current
  | some bound => some (match current with
    | none => bound
    | some current => min current bound)

section Walk

variable [HostPlatform]

/-- Nothing when a timestamp that is present cannot be read. -/
def meetInstant (edge : WindowEdge) (current : Option (JsString × Int)) (bound : Option JsString) :
    Option (Option (JsString × Int)) :=
  match bound with
  | none => some current
  | some value =>
    (parseTimestamp (some value)).map fun instant =>
      some (keepTightest edge Prod.snd current (value, instant))

/-- The body of the walk. -/
def meetStep (met : EnvelopeMeet) (constraints : CapabilityConstraints) : Option EnvelopeMeet := do
  let purposes := meetPurposes met.purposes constraints.purposes
  let notBefore ← meetInstant .start met.notBefore constraints.notBefore
  let expiresAt ← meetInstant .stop met.expiresAt constraints.expiresAt
  some
    { purposes
      notBefore
      expiresAt
      maxUses := meetCount met.maxUses constraints.maxUses
      delegationDepth := meetCount met.delegationDepth constraints.delegationDepth }

/-- Whether the start that was met is past the end that was met. -/
def EnvelopeMeet.inverted (met : EnvelopeMeet) : Bool :=
  match met.notBefore, met.expiresAt with
  | some start, some stop => stop.2 < start.2
  | _, _ => false

/-- The constraints the meet comes to. -/
def EnvelopeMeet.envelope (met : EnvelopeMeet) : CapabilityConstraints where
  purposes := met.purposes.map sortStrings
  notBefore := met.notBefore.map Prod.fst
  expiresAt := met.expiresAt.map Prod.fst
  maxUses := met.maxUses
  delegationDepth := met.delegationDepth

/-- The tightest envelope every set admits, or nothing when they admit nothing in common. -/
def tightestConstraints (sets : List CapabilityConstraints) : Option CapabilityConstraints := do
  let met ← sets.foldlM meetStep .start
  if met.purposes = some [] then none
  else if met.inverted then none
  else some met.envelope

/-! ## What the walk has met -/

/-- The bound is one of these, and none of them is tighter. -/
def Tightest {α : Type} (edge : WindowEdge) (key : α → Int) (bounds : List α) : Option α → Prop
  | none => bounds = []
  | some a => a ∈ bounds ∧ ∀ b ∈ bounds, edge.Tightens (key a) (key b)

/-- The purposes are those that every set which names any names. -/
def PurposesMet (sets : List CapabilityConstraints) : Option (List JsString) → Prop
  | none => ∀ c ∈ sets, c.purposes = none
  | some ps => ps.Nodup ∧ (∃ c ∈ sets, c.purposes.isSome) ∧
      ∀ p, p ∈ ps ↔ ∀ c ∈ sets, ∀ qs, c.purposes = some qs → p ∈ qs

/-- The timestamps of one field, each with its instant. -/
def instantsOf (field : CapabilityConstraints → Option JsString)
    (sets : List CapabilityConstraints) : List (JsString × Int) :=
  sets.filterMap fun c => (field c).bind fun s => (HostPlatform.dateParse s).map fun t => (s, t)

/-- Every timestamp of the field can be read. -/
def ReadableIn (field : CapabilityConstraints → Option JsString)
    (sets : List CapabilityConstraints) : Prop :=
  ∀ c ∈ sets, ∀ s, field c = some s → ∃ t, HostPlatform.dateParse s = some t

/-- The meet is that of these sets, axis by axis. -/
structure Meets (sets : List CapabilityConstraints) (met : EnvelopeMeet) : Prop where
  purposes : PurposesMet sets met.purposes
  starts : Tightest .start Prod.snd (instantsOf CapabilityConstraints.notBefore sets) met.notBefore
  stops : Tightest .stop Prod.snd (instantsOf CapabilityConstraints.expiresAt sets) met.expiresAt
  uses : Tightest .stop id (sets.filterMap CapabilityConstraints.maxUses) met.maxUses
  depth : Tightest .stop id (sets.filterMap CapabilityConstraints.delegationDepth)
    met.delegationDepth
  startsReadable : ReadableIn CapabilityConstraints.notBefore sets
  stopsReadable : ReadableIn CapabilityConstraints.expiresAt sets

omit [HostPlatform] in
theorem WindowEdge.tightens_of_tighter {edge : WindowEdge} {a b : Int}
    (h : edge.tighter a b = true) : edge.Tightens a b := by
  cases edge <;> simp only [tighter, decide_eq_true_eq] at h <;> exact le_of_lt h

omit [HostPlatform] in
theorem WindowEdge.tightens_of_not_tighter {edge : WindowEdge} {a b : Int}
    (h : ¬ edge.tighter a b = true) : edge.Tightens b a := by
  cases edge <;> simp only [tighter, decide_eq_true_eq, not_lt] at h <;> exact h

omit [HostPlatform] in
theorem WindowEdge.Tightens.trans {edge : WindowEdge} {a b c : Int} (h : edge.Tightens a b)
    (h' : edge.Tightens b c) : edge.Tightens a c := by
  cases edge
  · exact le_trans (show c ≤ b from h') h
  · exact le_trans (show a ≤ b from h) h'

omit [HostPlatform] in
theorem WindowEdge.Tightens.antisymm {edge : WindowEdge} {a b : Int} (h : edge.Tightens a b)
    (h' : edge.Tightens b a) : a = b := by
  cases edge
  · exact le_antisymm (show a ≤ b from h') h
  · exact le_antisymm (show a ≤ b from h) h'

omit [HostPlatform] in
theorem WindowEdge.Tightens.refl {edge : WindowEdge} (a : Int) : edge.Tightens a a := by
  cases edge <;> exact le_refl a

section Fields

variable {edge : WindowEdge} {sets sets' : List CapabilityConstraints}
  {constraints : CapabilityConstraints}

omit [HostPlatform] in
/-- One bound more. -/
theorem Tightest.keep {α : Type} {key : α → Int} {bounds : List α} {current : Option α}
    (h : Tightest edge key bounds current) (bound : α) :
    Tightest edge key (bounds ++ [bound]) (some (keepTightest edge key current bound)) := by
  cases current with
  | none =>
      obtain rfl : bounds = [] := h
      exact ⟨List.mem_singleton_self _, fun b hb => by
        rw [List.mem_singleton.mp hb]
        exact .refl _⟩
  | some a =>
      obtain ⟨hmem, hall⟩ := h
      dsimp only [keepTightest]
      by_cases hbound : edge.tighter (key bound) (key a) = true
      · rw [if_pos hbound]
        refine ⟨List.mem_append_right _ (List.mem_singleton_self _), fun b hb => ?_⟩
        rcases List.mem_append.mp hb with hb | hb
        · exact (WindowEdge.tightens_of_tighter hbound).trans (hall b hb)
        · rw [List.mem_singleton.mp hb]
          exact .refl _
      · rw [if_neg hbound]
        refine ⟨List.mem_append_left _ hmem, fun b hb => ?_⟩
        rcases List.mem_append.mp hb with hb | hb
        · exact hall b hb
        · rw [List.mem_singleton.mp hb]
          exact WindowEdge.tightens_of_not_tighter hbound

omit [HostPlatform] in
/-- The tightest bound of a collection is one instant, whichever spelling of it is kept. -/
theorem Tightest.unique {α : Type} {key : α → Int} {bounds bounds' : List α}
    {a a' : Option α} (h : Tightest edge key bounds a) (h' : Tightest edge key bounds' a')
    (hmem : ∀ b, b ∈ bounds ↔ b ∈ bounds') : a.map key = a'.map key := by
  cases a with
  | none =>
      obtain rfl : bounds = [] := h
      cases a' with
      | none => rfl
      | some a' => exact absurd ((hmem a').mpr h'.1) List.not_mem_nil
  | some a =>
      cases a' with
      | none =>
          obtain rfl : bounds' = [] := h'
          exact absurd ((hmem a).mp h.1) List.not_mem_nil
      | some a' =>
          exact congrArg some ((h.2 a' ((hmem a').mpr h'.1)).antisymm (h'.2 a ((hmem a).mp h.1)))

omit [HostPlatform] in
theorem tightest_meetCount {current : Option Int} {field : CapabilityConstraints → Option Int}
    (h : Tightest .stop id (sets.filterMap field) current) :
    Tightest .stop id ((sets ++ [constraints]).filterMap field)
      (meetCount current (field constraints)) := by
  rw [List.filterMap_append]
  cases hfield : field constraints with
  | none => simpa [meetCount, hfield] using h
  | some bound =>
      have hkeep : meetCount current (some bound) =
          some (keepTightest .stop id current bound) := by
        cases current with
        | none => rfl
        | some current =>
            show some (min current bound) = some (if decide (bound < current) = true then _ else _)
            rcases lt_or_ge bound current with hlt | hge
            · rw [if_pos (by simpa using hlt), min_eq_right (le_of_lt hlt)]
            · rw [if_neg (by simpa using hge), min_eq_left hge]
      rw [hkeep]
      simpa [hfield] using h.keep bound

theorem tightest_meetInstant {current current' : Option (JsString × Int)}
    {field : CapabilityConstraints → Option JsString}
    (h : Tightest edge Prod.snd (instantsOf field sets) current) (hread : ReadableIn field sets)
    (hmeet : meetInstant edge current (field constraints) = some current') :
    Tightest edge Prod.snd (instantsOf field (sets ++ [constraints])) current' ∧
      ReadableIn field (sets ++ [constraints]) := by
  have hread' : (∀ s, field constraints = some s → ∃ t, HostPlatform.dateParse s = some t) →
      ReadableIn field (sets ++ [constraints]) := by
    intro hlast c hc
    rcases List.mem_append.mp hc with hc | hc
    · exact hread c hc
    · rw [List.mem_singleton.mp hc]
      exact hlast
  unfold instantsOf at h ⊢
  rw [List.filterMap_append]
  cases hfield : field constraints with
  | none =>
      rw [hfield] at hmeet
      cases hmeet
      exact ⟨by simpa [hfield] using h, hread' fun s hs => by rw [hfield] at hs; cases hs⟩
  | some value =>
      rw [hfield] at hmeet
      obtain ⟨instant, hinstant, rfl⟩ := Option.map_eq_some_iff.mp hmeet
      rw [parseTimestamp_some] at hinstant
      refine ⟨by simpa [hfield, hinstant] using h.keep (value, instant), hread' fun s hs => ?_⟩
      rw [hfield] at hs
      cases hs
      exact ⟨instant, hinstant⟩

omit [HostPlatform] in
theorem purposesMet_meetPurposes {current : Option (List JsString)} (h : PurposesMet sets current) :
    PurposesMet (sets ++ [constraints]) (meetPurposes current constraints.purposes) := by
  cases hpurposes : constraints.purposes with
  | none =>
      cases current with
      | none =>
          intro c hc
          rcases List.mem_append.mp hc with hc | hc
          · exact h c hc
          · rw [List.mem_singleton.mp hc]
            exact hpurposes
      | some ps =>
          obtain ⟨hnodup, ⟨c, hc, hsome⟩, hmem⟩ := h
          refine ⟨hnodup, ⟨c, List.mem_append_left _ hc, hsome⟩, fun p => ?_⟩
          simp only [hmem, List.mem_append, List.mem_singleton, or_imp, forall_and, forall_eq,
            hpurposes, reduceCtorEq, false_implies, implies_true, and_true]
  | some qs =>
      have hlast : ∃ c ∈ sets ++ [constraints], c.purposes.isSome :=
        ⟨constraints, List.mem_append_right _ (List.mem_singleton_self _), by rw [hpurposes]; rfl⟩
      cases current with
      | none =>
          refine ⟨nodup_distinct _, hlast, fun p => ?_⟩
          rw [mem_distinct]
          constructor
          · intro hp c hc rs hrs
            rcases List.mem_append.mp hc with hc | hc
            · rw [h c hc] at hrs
              cases hrs
            · rw [List.mem_singleton.mp hc, hpurposes] at hrs
              cases hrs
              exact hp
          · intro hall
            exact hall constraints (List.mem_append_right _ (List.mem_singleton_self _)) qs hpurposes
      | some ps =>
          obtain ⟨hnodup, -, hmem⟩ := h
          refine ⟨hnodup.filter _, hlast, fun p => ?_⟩
          simp only [List.mem_filter, List.contains_eq_mem, decide_eq_true_eq, mem_distinct, hmem,
            List.mem_append, List.mem_singleton, or_imp, forall_and, forall_eq, hpurposes,
            Option.some.injEq, forall_eq']

end Fields

theorem meets_start : Meets [] .start where
  purposes _ hc := absurd hc List.not_mem_nil
  starts := rfl
  stops := rfl
  uses := rfl
  depth := rfl
  startsReadable _ hc := absurd hc List.not_mem_nil
  stopsReadable _ hc := absurd hc List.not_mem_nil

/-- **One set more.** -/
theorem Meets.step {sets : List CapabilityConstraints} {met met' : EnvelopeMeet}
    {constraints : CapabilityConstraints} (h : Meets sets met)
    (hstep : meetStep met constraints = some met') : Meets (sets ++ [constraints]) met' := by
  simp only [meetStep, Option.bind_eq_bind, Option.bind_eq_some_iff, Option.some.injEq] at hstep
  obtain ⟨starts, hstarts, stops, hstops, rfl⟩ := hstep
  obtain ⟨hstart, hstartRead⟩ := tightest_meetInstant h.starts h.startsReadable hstarts
  obtain ⟨hstop, hstopRead⟩ := tightest_meetInstant h.stops h.stopsReadable hstops
  exact ⟨purposesMet_meetPurposes h.purposes, hstart, hstop, tightest_meetCount h.uses,
    tightest_meetCount h.depth, hstartRead, hstopRead⟩

theorem meetStep_isSome {met : EnvelopeMeet} {constraints : CapabilityConstraints}
    (hstarts : ReadableIn CapabilityConstraints.notBefore [constraints])
    (hstops : ReadableIn CapabilityConstraints.expiresAt [constraints]) :
    ∃ met', meetStep met constraints = some met' := by
  have hinstant : ∀ {edge : WindowEdge} {current : Option (JsString × Int)}
      {bound : Option JsString}, (∀ s, bound = some s → ∃ t, HostPlatform.dateParse s = some t) →
      ∃ current', meetInstant edge current bound = some current' := by
    intro edge current bound hread
    cases bound with
    | none => exact ⟨current, rfl⟩
    | some value =>
        obtain ⟨t, ht⟩ := hread value rfl
        exact ⟨_, by rw [meetInstant, parseTimestamp_some, ht]; rfl⟩
  obtain ⟨starts, hstart⟩ := @hinstant .start met.notBefore constraints.notBefore
    fun s hs => hstarts _ (List.mem_singleton_self _) s hs
  obtain ⟨stops, hstop⟩ := @hinstant .stop met.expiresAt constraints.expiresAt
    fun s hs => hstops _ (List.mem_singleton_self _) s hs
  exact ⟨_, by rw [meetStep, hstart, hstop]; rfl⟩

/-- **The walk.** It gets through exactly when every timestamp can be read, and then it has met
every set. -/
theorem foldlM_meetStep {sets : List CapabilityConstraints} {met : EnvelopeMeet} :
    sets.foldlM meetStep .start = some met → Meets sets met := by
  induction sets using List.reverseRecOn generalizing met with
  | nil =>
      intro h
      cases h
      exact meets_start
  | append_singleton sets constraints ih =>
      intro h
      rw [List.foldlM_append] at h
      obtain ⟨before, hbefore, hlast⟩ := Option.bind_eq_some_iff.mp h
      rw [List.foldlM_cons] at hlast
      obtain ⟨after, hafter, hrest⟩ := Option.bind_eq_some_iff.mp hlast
      cases hrest
      exact (ih hbefore).step hafter

theorem foldlM_meetStep_isSome {sets : List CapabilityConstraints} {met : EnvelopeMeet}
    (hstarts : ReadableIn CapabilityConstraints.notBefore sets)
    (hstops : ReadableIn CapabilityConstraints.expiresAt sets) :
    ∃ met', sets.foldlM meetStep met = some met' := by
  induction sets generalizing met with
  | nil => exact ⟨met, rfl⟩
  | cons constraints rest ih =>
      have hhead : ∀ {field}, ReadableIn field (constraints :: rest) →
          ReadableIn field [constraints] ∧ ReadableIn field rest := fun h =>
        ⟨fun c hc => h c (List.mem_singleton.mp hc ▸ List.mem_cons_self),
          fun c hc => h c (List.mem_cons_of_mem _ hc)⟩
      obtain ⟨met₁, hfirst⟩ := @meetStep_isSome _ met constraints (hhead hstarts).1 (hhead hstops).1
      obtain ⟨met', hrest⟩ := @ih met₁ (hhead hstarts).2 (hhead hstops).2
      exact ⟨met', by rw [List.foldlM_cons, hfirst]; exact hrest⟩

/-! ## The envelope -/

section Envelope

variable {sets sets' : List CapabilityConstraints} {envelope : CapabilityConstraints}
  {met met' : EnvelopeMeet}

theorem tightestConstraints_eq_some : tightestConstraints sets = some envelope ↔
    ∃ met, sets.foldlM meetStep .start = some met ∧ met.purposes ≠ some [] ∧
      met.inverted = false ∧ envelope = met.envelope := by
  unfold tightestConstraints
  simp only [Option.bind_eq_bind, Option.bind_eq_some_iff]
  constructor
  · rintro ⟨met, hmet, h⟩
    split_ifs at h with hpurposes hinverted
    exact ⟨met, hmet, hpurposes, by simpa using hinverted, (Option.some.inj h).symm⟩
  · rintro ⟨met, hmet, hpurposes, hinverted, rfl⟩
    exact ⟨met, hmet, by rw [if_neg hpurposes, if_neg (by simp [hinverted])]⟩

/-- A timestamp that was kept was read. -/
theorem Tightest.readable {edge : WindowEdge} {field : CapabilityConstraints → Option JsString}
    {kept : Option (JsString × Int)} (h : Tightest edge Prod.snd (instantsOf field sets) kept)
    {s : JsString} {t : Int} (hkept : kept = some (s, t)) :
    HostPlatform.dateParse s = some t ∧ ∃ c ∈ sets, field c = some s := by
  rw [hkept] at h
  obtain ⟨c, hc, hpair⟩ := List.mem_filterMap.mp h.1
  obtain ⟨s', hs', hparse⟩ := Option.bind_eq_some_iff.mp hpair
  obtain ⟨t', ht', heq⟩ := Option.map_eq_some_iff.mp hparse
  cases heq
  exact ⟨ht', c, hc, hs'⟩

theorem Tightest.boundWithin {edge : WindowEdge} {field : CapabilityConstraints → Option JsString}
    {kept : Option (JsString × Int)} (h : Tightest edge Prod.snd (instantsOf field sets) kept)
    (hread : ReadableIn field sets) {c : CapabilityConstraints} (hc : c ∈ sets) :
    BoundWithin edge (kept.map Prod.fst) (field c) where
  readable s hs := by
    obtain ⟨⟨s', t⟩, hkept, rfl⟩ := Option.map_eq_some_iff.mp hs
    exact ⟨t, (h.readable hkept).1⟩
  tightened s hs := by
    obtain ⟨t, ht⟩ := hread c hc s hs
    have hmem : (s, t) ∈ instantsOf field sets :=
      List.mem_filterMap.mpr ⟨c, hc, by rw [hs, Option.bind_some, ht]; rfl⟩
    cases hkept : kept with
    | none =>
        rw [hkept] at h
        rw [show instantsOf field sets = [] from h] at hmem
        exact absurd hmem List.not_mem_nil
    | some pair =>
        obtain ⟨s', t'⟩ := pair
        have hread' := (h.readable hkept).1
        rw [hkept] at h
        exact ⟨t, ht, s', t', rfl, hread', h.2 _ hmem⟩

omit [HostPlatform] in
/-- A budget that was kept is no larger than any that was stated. -/
theorem Tightest.count_le {field : CapabilityConstraints → Option Int} {kept : Option Int}
    (h : Tightest .stop id (sets.filterMap field) kept) {c : CapabilityConstraints} (hc : c ∈ sets)
    {m : Int} (hm : field c = some m) : ∃ m', kept = some m' ∧ m' ≤ m := by
  have hmem : m ∈ sets.filterMap field := List.mem_filterMap.mpr ⟨c, hc, hm⟩
  cases hkept : kept with
  | none =>
      rw [hkept] at h
      rw [show sets.filterMap field = [] from h] at hmem
      exact absurd hmem List.not_mem_nil
  | some m' =>
      rw [hkept] at h
      exact ⟨m', rfl, h.2 m hmem⟩

/-- **The meet is within every set**, and spends no more than any. -/
theorem tightestConstraints_within (h : tightestConstraints sets = some envelope)
    {c : CapabilityConstraints} (hc : c ∈ sets) :
    EnvelopeWithin envelope c ∧
      ∀ m, c.maxUses = some m → ∃ m', envelope.maxUses = some m' ∧ m' ≤ m := by
  obtain ⟨met, hmet, -, -, rfl⟩ := tightestConstraints_eq_some.mp h
  have hmeets := foldlM_meetStep hmet
  refine ⟨⟨fun allowed hallowed => ?_, hmeets.starts.boundWithin hmeets.startsReadable hc,
    hmeets.stops.boundWithin hmeets.stopsReadable hc⟩, fun m hm => ?_⟩
  · have hpurposes := hmeets.purposes
    show ∃ ps, met.purposes.map sortStrings = some ps ∧ _
    cases hkept : met.purposes with
    | none =>
        rw [hkept] at hpurposes
        rw [hpurposes c hc] at hallowed
        cases hallowed
    | some ps =>
        rw [hkept] at hpurposes
        refine ⟨sortStrings ps, rfl, fun p hp => ?_⟩
        exact (hpurposes.2.2 p).mp (mem_sortStrings.mp hp) c hc allowed hallowed
  · exact hmeets.uses.count_le hc hm

/-- One envelope, up to the spelling of its two timestamps. -/
structure SameEnvelope (e e' : CapabilityConstraints) : Prop where
  purposes : e.purposes = e'.purposes
  starts : parseTimestamp e.notBefore = parseTimestamp e'.notBefore
  startsBound : e.notBefore.isSome = e'.notBefore.isSome
  stops : parseTimestamp e.expiresAt = parseTimestamp e'.expiresAt
  stopsBound : e.expiresAt.isSome = e'.expiresAt.isSome
  uses : e.maxUses = e'.maxUses
  depth : e.delegationDepth = e'.delegationDepth

omit [HostPlatform] in
theorem PurposesMet.unique {a a' : Option (List JsString)} (h : PurposesMet sets a)
    (h' : PurposesMet sets' a') (hmem : ∀ c, c ∈ sets ↔ c ∈ sets') :
    a.map sortStrings = a'.map sortStrings := by
  cases a with
  | none =>
      cases a' with
      | none => rfl
      | some ps' =>
          obtain ⟨c, hc, hsome⟩ := h'.2.1
          rw [h c ((hmem c).mpr hc)] at hsome
          cases hsome
  | some ps =>
      cases a' with
      | none =>
          obtain ⟨c, hc, hsome⟩ := h.2.1
          rw [h' c ((hmem c).mp hc)] at hsome
          cases hsome
      | some ps' =>
          refine congrArg some (sortStrings_eq_of_perm ?_)
          refine (List.perm_ext_iff_of_nodup h.1 h'.1).mpr fun p => ?_
          rw [h.2.2, h'.2.2]
          simp only [hmem]

theorem mem_instantsOf_congr {field : CapabilityConstraints → Option JsString}
    (hmem : ∀ c, c ∈ sets ↔ c ∈ sets') (pair : JsString × Int) :
    pair ∈ instantsOf field sets ↔ pair ∈ instantsOf field sets' := by
  simp only [instantsOf, List.mem_filterMap, hmem]

theorem Tightest.instant {edge : WindowEdge} {field : CapabilityConstraints → Option JsString}
    {kept : Option (JsString × Int)} (h : Tightest edge Prod.snd (instantsOf field sets) kept) :
    parseTimestamp (kept.map Prod.fst) = kept.map Prod.snd := by
  cases hkept : kept with
  | none => rfl
  | some pair =>
      obtain ⟨s, t⟩ := pair
      exact (h.readable hkept).1

omit [HostPlatform] in
theorem inverted_iff : met.inverted = true ↔ ∃ start stop, met.notBefore.map Prod.snd = some start ∧
    met.expiresAt.map Prod.snd = some stop ∧ stop < start := by
  unfold EnvelopeMeet.inverted
  cases met.notBefore <;> cases met.expiresAt <;> simp

/-- The schema accepts what it answers. -/
theorem boundsValid_of_own {c : CapabilityConstraints}
    (h : capabilityConstraintsSchema c = some c) : BoundsValid c :=
  (capabilityConstraintsSchema_iff.mp h).1

/-- The purposes of an envelope that is its own parse. -/
theorem purposes_of_own {c : CapabilityConstraints} {ps : List JsString}
    (h : capabilityConstraintsSchema c = some c) (hps : c.purposes = some ps) :
    arraySchema purposeSchema 1 64 ps = some ps := by
  obtain ⟨-, own, heq, hown⟩ := capabilityConstraintsSchema_iff.mp h
  have hsame : own = some ps := by rw [← hps, heq]
  rw [hps, hsame] at hown
  obtain ⟨parsed, hparsed, hsome⟩ := Option.map_eq_some_iff.mp hown
  rwa [Option.some.inj hsome] at hparsed

/-- **The bounds that were met are bounds the schema accepts.** -/
theorem Meets.boundsValid (hmeets : Meets sets met) (hinverted : met.inverted = false)
    (hsets : ∀ c ∈ sets, BoundsValid c) : BoundsValid met.envelope where
  starts s hs := by
    obtain ⟨⟨s', t⟩, hkept, rfl⟩ := Option.map_eq_some_iff.mp hs
    obtain ⟨-, c, hc, hfield⟩ := hmeets.starts.readable hkept
    exact (hsets c hc).starts _ hfield
  stops s hs := by
    obtain ⟨⟨s', t⟩, hkept, rfl⟩ := Option.map_eq_some_iff.mp hs
    obtain ⟨-, c, hc, hfield⟩ := hmeets.stops.readable hkept
    exact (hsets c hc).stops _ hfield
  uses n hn := by
    have huses := hmeets.uses
    rw [show met.maxUses = some n from hn] at huses
    obtain ⟨c, hc, hfield⟩ := List.mem_filterMap.mp huses.1
    exact (hsets c hc).uses n hfield
  depth n hn := by
    have hdepth := hmeets.depth
    rw [show met.delegationDepth = some n from hn] at hdepth
    obtain ⟨c, hc, hfield⟩ := List.mem_filterMap.mp hdepth.1
    exact (hsets c hc).depth n hfield
  window := by
    have hstarts : (met.notBefore.map Prod.fst).bind HostPlatform.dateParse =
        met.notBefore.map Prod.snd := hmeets.starts.instant
    have hstops : (met.expiresAt.map Prod.fst).bind HostPlatform.dateParse =
        met.expiresAt.map Prod.snd := hmeets.stops.instant
    rw [← hinverted]
    unfold startsAfterEnd EnvelopeMeet.inverted EnvelopeMeet.envelope
    dsimp only
    rw [hstarts, hstops]
    cases met.notBefore <;> cases met.expiresAt <;> rfl

/-- The purposes that were met are some of the purposes of one set, each once. -/
theorem Meets.purposes_from (hmeets : Meets sets met) {ps : List JsString}
    (hps : met.envelope.purposes = some ps) : ps.Nodup ∧
      ∃ c ∈ sets, ∃ qs, c.purposes = some qs ∧ ∀ p ∈ ps, p ∈ qs := by
  obtain ⟨kept, hkept, rfl⟩ := Option.map_eq_some_iff.mp hps
  have hpurposes := hmeets.purposes
  rw [hkept] at hpurposes
  obtain ⟨hnodup, ⟨c, hc, hnamed⟩, hmem⟩ := hpurposes
  obtain ⟨qs, hqs⟩ := Option.isSome_iff_exists.mp hnamed
  refine ⟨(sortStrings_perm kept).nodup_iff.mpr hnodup, c, hc, qs, hqs, fun p hp => ?_⟩
  exact (hmem p).mp (mem_sortStrings.mp hp) c hc qs hqs

omit [HostPlatform] in
/-- The envelope names no purpose only when no purpose was met. -/
theorem EnvelopeMeet.purposes_ne_nil (hnonempty : met.purposes ≠ some []) {ps : List JsString}
    (hps : met.envelope.purposes = some ps) : ps ≠ [] := by
  rintro rfl
  obtain ⟨kept, hkept, hsorted⟩ := Option.map_eq_some_iff.mp hps
  have hperm : [].Perm kept := hsorted ▸ sortStrings_perm kept
  rw [hperm.symm.eq_nil] at hkept
  exact hnonempty hkept

/-- As many purposes as the schema accepts. -/
theorem Meets.purposes_length (hmeets : Meets sets met) (hnonempty : met.purposes ≠ some [])
    {high : Nat} (hsets : ∀ c ∈ sets, ∀ qs, c.purposes = some qs → qs.length ≤ high)
    {ps : List JsString} (hps : met.envelope.purposes = some ps) :
    1 ≤ ps.length ∧ ps.length ≤ high := by
  obtain ⟨hnodup, c, hc, qs, hqs, hsub⟩ := hmeets.purposes_from hps
  have hlength : ps.length ≤ qs.length := (List.subperm_of_subset hnodup hsub).length_le
  exact ⟨List.length_pos_iff.mpr (EnvelopeMeet.purposes_ne_nil hnonempty hps),
    hlength.trans (hsets c hc qs hqs)⟩

/-- **The meet of envelopes that are their own parse is its own parse**, at any depth the schema
accepts. -/
theorem tightestConstraints_valid (h : tightestConstraints sets = some envelope)
    (hsets : ∀ c ∈ sets, capabilityConstraintsSchema c = some c) {depth : Int} (hdepth : 0 ≤ depth) :
    capabilityConstraintsSchema { envelope with delegationDepth := some depth } =
      some { envelope with delegationDepth := some depth } := by
  obtain ⟨met, hmet, hnonempty, hinverted, rfl⟩ := tightestConstraints_eq_some.mp h
  have hmeets := foldlM_meetStep hmet
  have hvalid := hmeets.boundsValid hinverted fun c hc => boundsValid_of_own (hsets c hc)
  refine capabilityConstraintsSchema_iff.mpr ⟨⟨hvalid.starts, hvalid.stops, hvalid.uses, ?_,
    hvalid.window⟩, met.envelope.purposes, rfl, ?_⟩
  · intro n hn
    cases hn
    exact hdepth
  · show optionalSchema (arraySchema purposeSchema 1 64) met.envelope.purposes = _
    cases hps : met.envelope.purposes with
    | none => rfl
    | some ps =>
        have hown : ∀ c ∈ sets, ∀ qs, c.purposes = some qs → _ := fun c hc qs hqs =>
          arraySchema_eq_self_iff.mp (purposes_of_own (hsets c hc) hqs)
        obtain ⟨-, c, hc, qs, hqs, hsub⟩ := hmeets.purposes_from hps
        refine congrArg (Option.map some) (arraySchema_eq_self_iff.mpr ⟨?_, ?_⟩)
        · exact hmeets.purposes_length hnonempty (fun c hc qs hqs => (hown c hc qs hqs).1.2) hps
        · intro p hp
          exact (hown c hc qs hqs).2 p (hsub p hp)

/-- **The meet depends on the sets as a collection**: neither their order nor a repetition
matters. -/
theorem tightestConstraints_congr (hmem : ∀ c, c ∈ sets ↔ c ∈ sets')
    (h : tightestConstraints sets = some envelope) :
    ∃ envelope', tightestConstraints sets' = some envelope' ∧
      SameEnvelope envelope envelope' := by
  obtain ⟨met, hmet, hpurposes, hinverted, rfl⟩ := tightestConstraints_eq_some.mp h
  have hmeets := foldlM_meetStep hmet
  obtain ⟨met', hmet'⟩ := @foldlM_meetStep_isSome _ sets' .start
    (fun c hc => hmeets.startsReadable c ((hmem c).mpr hc))
    (fun c hc => hmeets.stopsReadable c ((hmem c).mpr hc))
  have hmeets' := foldlM_meetStep hmet'
  have hps := hmeets.purposes.unique hmeets'.purposes hmem
  have hstarts := hmeets.starts.unique hmeets'.starts (mem_instantsOf_congr hmem)
  have hstops := hmeets.stops.unique hmeets'.stops (mem_instantsOf_congr hmem)
  have huses : met.maxUses.map id = met'.maxUses.map id :=
    hmeets.uses.unique hmeets'.uses fun m => by simp only [List.mem_filterMap, hmem]
  have hdepth : met.delegationDepth.map id = met'.delegationDepth.map id :=
    hmeets.depth.unique hmeets'.depth fun m => by simp only [List.mem_filterMap, hmem]
  rw [Option.map_id_fun, id, id] at huses hdepth
  have hisSome : ∀ {a a' : Option (JsString × Int)}, a.map Prod.snd = a'.map Prod.snd →
      (a.map Prod.fst).isSome = (a'.map Prod.fst).isSome := by
    intro a a' heq
    have := congrArg Option.isSome heq
    simpa using this
  refine ⟨met'.envelope, tightestConstraints_eq_some.mpr ⟨met', hmet', ?_, ?_, rfl⟩, hps, ?_,
    hisSome hstarts, ?_, hisSome hstops, huses, hdepth⟩
  · intro hempty
    have hnone : met.envelope.purposes = some (sortStrings []) := by
      rw [hempty] at hps
      exact hps
    exact EnvelopeMeet.purposes_ne_nil hpurposes hnone (sortStrings_perm []).eq_nil
  · rw [← hinverted, Bool.eq_iff_iff, inverted_iff, inverted_iff, hstarts, hstops]
  · exact hmeets.starts.instant.trans (hstarts.trans hmeets'.starts.instant.symm)
  · exact hmeets.stops.instant.trans (hstops.trans hmeets'.stops.instant.symm)

end Envelope

end Walk

end SharedOS.Core
