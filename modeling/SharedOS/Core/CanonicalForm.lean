/-
SharedOS.Core.CanonicalForm — what canonical JSON tells apart.

`canonicalJson` sorts the keys of every object by `localeCompare` with a stable sort. A collation may
answer that two distinct keys are equal, and such keys stay in the order they were inserted in. The
text therefore decides equality up to key order except on values that differ by swapping two keys
the collation ties (`canonicalJson_decides_iff`).
-/
import SharedOS.Core.CapabilityRequest
import SharedOS.Foundation.KeyOrder

namespace SharedOS.Core

open SharedOS.Foundation SharedOS.Contracts

section Canonical

variable [HostPlatform] {D : ℚ → Prop}

/-- **One canonical text**: equal up to key order, and no keys that collate as equal are swapped. -/
theorem canonicalJson_eq_iff (hcollation : ConsistentComparison HostPlatform.localeCompare)
    (hnumbers : Json.NumberTexts HostPlatform.numberToString D) {a b : Json} (ha : a.IsValue D)
    (hb : b.IsValue D) : canonicalJson a = canonicalJson b ↔
      a.KeyOrderEq b ∧ ¬ a.SwapsTie HostPlatform.localeCompare b := by
  rw [canonicalJson_eq_stringify, canonicalJson_eq_stringify,
    Json.stringify_sortKeys_eq_iff hnumbers ha hb]
  exact Json.keyForm_eq_iff hcollation ha hb

/-- **Where canonical JSON decides equality up to key order**: everywhere but at two values that are
equal up to key order and swap two keys that collate as equal. Where it does, they have one hash. -/
theorem canonicalJson_decides_iff
    (hcollation : ConsistentComparison HostPlatform.localeCompare)
    (hnumbers : Json.NumberTexts HostPlatform.numberToString D) {a b : Json} (ha : a.IsValue D)
    (hb : b.IsValue D) :
    ((canonicalJson a = canonicalJson b ↔ a.KeyOrderEq b) ↔
      ¬ (a.KeyOrderEq b ∧ a.SwapsTie HostPlatform.localeCompare b)) ∧
    (a.KeyOrderEq b → ¬ a.SwapsTie HostPlatform.localeCompare b → hashJson a = hashJson b) := by
  -- one text: equal up to key order, and no tie in opposite orders
  have hiff := canonicalJson_eq_iff hcollation hnumbers ha hb
  refine ⟨⟨?_, ?_⟩, ?_⟩
  · rintro hdecides ⟨heq, hswap⟩
    exact (hiff.mp (hdecides.mpr heq)).2 hswap
  · intro hnone
    constructor
    · intro h
      exact (hiff.mp h).1
    · intro heq
      exact hiff.mpr ⟨heq, fun hswap => hnone ⟨heq, hswap⟩⟩
  · intro heq hnone
    exact congrArg HostPlatform.sha256Hex (hiff.mpr ⟨heq, hnone⟩)

end Canonical

namespace Sample

/-- A text with `e` followed by a combining acute accent written as one character. -/
def composed : JsString → JsString
  | 0x65 :: 0x301 :: rest => 0xE9 :: composed rest
  | u :: rest => u :: composed rest
  | [] => []

/-- A host whose collation does not tell a composed character from its decomposition. -/
@[reducible]
def composingPlatform : HostPlatform :=
  { Reference.instHostPlatform with
    localeCompare := fun a b =>
      if composed a < composed b then -1 else if composed b < composed a then 1 else 0 }

/-- Two spellings of one letter. -/
def precomposed : JsString := [0xE9]

/-- The letter e and a combining acute accent. -/
def decomposed : JsString := [0x65, 0x301]

/-- An object of these two keys. -/
def spelled (first second : JsString) : Json :=
  .obj [(first, .bool true), (second, .bool true)]

theorem spelled_isValue {D : ℚ → Prop} {first second : JsString} (hne : first ≠ second) :
    (spelled first second).IsValue D := by
  refine .obj ?_ ?_
  · simpa using hne
  · intro e he
    simp only [List.mem_cons, List.not_mem_nil, or_false] at he
    rcases he with rfl | rfl
    · exact .bool true
    · exact .bool true

theorem spelled_keyOrderEq {first second : JsString} :
    (spelled first second).KeyOrderEq (spelled second first) := by
  refine .obj (.swap _ _ _) ?_
  intro k v w hv hw
  have hbool : ∀ {a b : JsString}, ∀ e ∈ [(a, Json.bool true), (b, Json.bool true)],
      e.2 = .bool true := by
    intro a b e he
    simp only [List.mem_cons, List.not_mem_nil, or_false] at he
    rcases he with rfl | rfl
    · rfl
    · rfl
  rw [show v = _ from hbool _ hv, show w = _ from hbool _ hw]
  exact .bool true

/-- The numbers zero and one, as the reference host writes them. -/
theorem numberTexts_bits : Json.NumberTexts Reference.instHostPlatform.numberToString
    fun q => q = 0 ∨ q = 1 := by
  refine ⟨⟨?_, ?_, ?_⟩, .inl rfl, by decide +kernel⟩
  · rintro _ _ ⟨p, rfl | rfl, rfl⟩ ⟨q, rfl | rfl, rfl⟩ h
    · rfl
    · exact absurd h (by decide +kernel)
    · exact absurd h (by decide +kernel)
    · rfl
  · rintro _ ⟨p, rfl | rfl, rfl⟩
    · decide +kernel
    · decide +kernel
  · have hzero : Reference.instHostPlatform.numberToString 0 = [0x30] := by decide +kernel
    have hone : Reference.instHostPlatform.numberToString 1 = [0x31] := by decide +kernel
    rintro _ ⟨p, rfl | rfl, rfl⟩ u hu
    · rw [Json.numberText, hzero] at hu
      rw [List.mem_singleton.mp hu]
      rfl
    · rw [Json.numberText, hone] at hu
      rw [List.mem_singleton.mp hu]
      rfl

/-- The reference host compares by code units. -/
theorem consistent_codeUnits :
    ConsistentComparison Reference.instHostPlatform.localeCompare := by
  refine consistentComparison_of_linearOrder ?_ ?_
  · intro a b
    show (if a < b then (-1 : Int) else if b < a then 1 else 0) < 0 ↔ _
    split_ifs with h₁ h₂
    · exact iff_of_true (by decide) h₁
    · exact iff_of_false (by decide) h₁
    · exact iff_of_false (by decide) h₁
  · intro a b
    show 0 < (if a < b then (-1 : Int) else if b < a then 1 else 0) ↔ _
    split_ifs with h₁ h₂
    · exact iff_of_false (by decide) (not_lt.mpr h₁.le)
    · exact iff_of_true (by decide) h₂
    · exact iff_of_false (by decide) h₂

end Sample

/-- Two objects with one key each way round, under a collation that ties the keys. -/
theorem swapped_spellings_told_apart :
    ConsistentComparison Sample.composingPlatform.localeCompare ∧
    (∀ D, (Sample.spelled Sample.precomposed Sample.decomposed).IsValue D) ∧
    (∀ D, (Sample.spelled Sample.decomposed Sample.precomposed).IsValue D) ∧
    (Sample.spelled Sample.precomposed Sample.decomposed).KeyOrderEq
      (Sample.spelled Sample.decomposed Sample.precomposed) ∧
    @canonicalJson Sample.composingPlatform
        (Sample.spelled Sample.precomposed Sample.decomposed) ≠
      @canonicalJson Sample.composingPlatform
        (Sample.spelled Sample.decomposed Sample.precomposed) :=
  ⟨Sample.consistent_codeUnits.comap Sample.composed,
    fun _ => Sample.spelled_isValue (by decide), fun _ => Sample.spelled_isValue (by decide),
    Sample.spelled_keyOrderEq, by decide +kernel⟩

open scoped SharedOS.Foundation.Reference in
theorem canonicalJson_decides_iff_spelled :
    ((canonicalJson (Sample.spelled "a" "b") = canonicalJson (Sample.spelled "b" "a") ↔
        (Sample.spelled "a" "b").KeyOrderEq (Sample.spelled "b" "a")) ↔
      ¬ ((Sample.spelled "a" "b").KeyOrderEq (Sample.spelled "b" "a") ∧
        (Sample.spelled "a" "b").SwapsTie HostPlatform.localeCompare (Sample.spelled "b" "a"))) ∧
    ((Sample.spelled "a" "b").KeyOrderEq (Sample.spelled "b" "a") →
      ¬ (Sample.spelled "a" "b").SwapsTie HostPlatform.localeCompare (Sample.spelled "b" "a") →
      hashJson (Sample.spelled "a" "b") = hashJson (Sample.spelled "b" "a")) :=
  canonicalJson_decides_iff Sample.consistent_codeUnits Sample.numberTexts_bits
    (Sample.spelled_isValue (by decide)) (Sample.spelled_isValue (by decide))

end SharedOS.Core
