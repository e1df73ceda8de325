/-
SharedOS.Core.Constraints — the ordering of constraint envelopes.

One set of bounds is within another when every use it admits the other admits too. The code
reports the first field that reaches outside. `constraintsAreWithin_iff` says what the absence of
a report means, field by field, and it is what both the issuing side and the deciding side use.
-/
import SharedOS.Core.Internal

namespace SharedOS.Core

open SharedOS.Foundation SharedOS.Contracts

variable [HostPlatform]

/-- The fields that bound when and for what a capability may be used. -/
inductive ConstraintEnvelopeField where
  | purposes
  | notBefore
  | expiresAt
  deriving DecidableEq

/-- One end of a window. -/
inductive WindowEdge where
  | start
  | stop
  deriving DecidableEq

/-- `instantIsWithin`. -/
def instantIsWithin (inner outer : Option JsString) (edge : WindowEdge) : Bool :=
  let innerAt := parseTimestamp inner
  let outerAt := parseTimestamp outer
  if (inner.isSome && innerAt.isNone) || (outer.isSome && outerAt.isNone) then false
  else
    match outerAt, innerAt with
    | none, _ => true
    | some _, none => false
    | some outerAt, some innerAt =>
        match edge with
        | .start => outerAt ≤ innerAt
        | .stop => innerAt ≤ outerAt

/-- Whether the purposes of `inner` reach outside those of `outer`. -/
def purposesReachOutside (inner outer : CapabilityConstraints) : Bool :=
  match outer.purposes, inner.purposes with
  | none, _ => false
  | some _, none => true
  | some allowed, some purposes => !purposes.all allowed.contains

/-- The first field on which `inner` reaches outside `outer`. -/
def constraintEnvelopeViolation (inner outer : CapabilityConstraints) :
    Option ConstraintEnvelopeField :=
  if purposesReachOutside inner outer then some .purposes
  else if !instantIsWithin inner.notBefore outer.notBefore .start then some .notBefore
  else if !instantIsWithin inner.expiresAt outer.expiresAt .stop then some .expiresAt
  else none

/-- `constraintsAreWithin`. -/
def constraintsAreWithin (inner outer : CapabilityConstraints) : Bool :=
  constraintEnvelopeViolation inner outer = none

/-! ## What containment means -/

/-- How an edge compares: a start moves later, an end moves earlier. -/
def WindowEdge.Tightens : WindowEdge → Int → Int → Prop
  | .start, inner, outer => outer ≤ inner
  | .stop, inner, outer => inner ≤ outer

/-- The bound `inner` is readable where it is stated, and where `outer` states one, so does
`inner`, at least as tight. -/
structure BoundWithin (edge : WindowEdge) (inner outer : Option JsString) : Prop where
  readable : ∀ s, inner = some s → ∃ t, HostPlatform.dateParse s = some t
  tightened : ∀ s, outer = some s → ∃ t, HostPlatform.dateParse s = some t ∧
    ∃ s' t', inner = some s' ∧ HostPlatform.dateParse s' = some t' ∧ edge.Tightens t' t

theorem instantIsWithin_iff {edge : WindowEdge} {inner outer : Option JsString} :
    instantIsWithin inner outer edge = true ↔ BoundWithin edge inner outer := by
  have hsplit : BoundWithin edge inner outer ↔
      (∀ s, inner = some s → ∃ t, HostPlatform.dateParse s = some t) ∧
        ∀ s, outer = some s → ∃ t, HostPlatform.dateParse s = some t ∧
          ∃ s' t', inner = some s' ∧ HostPlatform.dateParse s' = some t' ∧ edge.Tightens t' t :=
    ⟨fun h => ⟨h.readable, h.tightened⟩, fun h => ⟨h.1, h.2⟩⟩
  rw [hsplit]
  unfold instantIsWithin
  cases inner with
  | none =>
      cases outer with
      | none => simp
      | some o => cases ho : HostPlatform.dateParse o <;> simp [ho]
  | some i =>
      cases hi : HostPlatform.dateParse i with
      | none => simp [hi]
      | some t =>
          cases outer with
          | none => simp [hi]
          | some o =>
              cases ho : HostPlatform.dateParse o <;> cases edge <;>
                simp [hi, ho, WindowEdge.Tightens]

/-- `inner` is within `outer` on every ordered field. -/
structure EnvelopeWithin (inner outer : CapabilityConstraints) : Prop where
  purposes : ∀ allowed, outer.purposes = some allowed →
    ∃ ps, inner.purposes = some ps ∧ ∀ p ∈ ps, p ∈ allowed
  starts : BoundWithin .start inner.notBefore outer.notBefore
  stops : BoundWithin .stop inner.expiresAt outer.expiresAt

omit [HostPlatform] in
theorem purposesReachOutside_iff {inner outer : CapabilityConstraints} :
    purposesReachOutside inner outer = false ↔
      ∀ allowed, outer.purposes = some allowed →
        ∃ ps, inner.purposes = some ps ∧ ∀ p ∈ ps, p ∈ allowed := by
  unfold purposesReachOutside
  cases outer.purposes with
  | none => simp
  | some allowed => cases inner.purposes <;> simp

/-- **No reported field means containment on every field.** -/
theorem constraintsAreWithin_iff {inner outer : CapabilityConstraints} :
    constraintsAreWithin inner outer = true ↔ EnvelopeWithin inner outer := by
  have hstart := @instantIsWithin_iff _ .start inner.notBefore outer.notBefore
  have hstop := @instantIsWithin_iff _ .stop inner.expiresAt outer.expiresAt
  have hpurposes := @purposesReachOutside_iff inner outer
  unfold constraintsAreWithin constraintEnvelopeViolation
  rw [decide_eq_true_iff]
  constructor
  · intro h
    split_ifs at h with h₁ h₂ h₃
    simp only [Bool.not_eq_true, Bool.not_eq_true', Bool.not_eq_false] at h₁ h₂ h₃
    exact ⟨hpurposes.mp h₁, hstart.mp h₂, hstop.mp h₃⟩
  · intro h
    simp only [hpurposes.mpr h.purposes, hstart.mpr h.starts, hstop.mpr h.stops, Bool.not_true,
      Bool.false_eq_true, if_false]

/-- A reported field is `purposes` only when the purposes reach outside. -/
theorem constraintEnvelopeViolation_eq_none {inner outer : CapabilityConstraints} :
    constraintEnvelopeViolation inner outer = none ↔ EnvelopeWithin inner outer := by
  rw [← constraintsAreWithin_iff, constraintsAreWithin, decide_eq_true_iff]

end SharedOS.Core
