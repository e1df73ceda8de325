/-
SharedOS.Foundation.Platform — what a JavaScript program takes from its host.

Dates, collation, the text of a number and digests come from the engine or from its libraries.
They are one parameter: every statement holds for every platform unless it names a law. The class
carries data, so a concrete platform can be supplied where something is to be evaluated.
-/
import Mathlib.Data.List.DropRight
import SharedOS.Foundation.Json

namespace SharedOS.Foundation

/-- The host functions the code calls. -/
class HostPlatform where
  /-- `Date.parse`: a finite time value, or none for `NaN`. -/
  dateParse : JsString → Option Int
  /-- `String.prototype.localeCompare`. -/
  localeCompare : JsString → JsString → Int
  /-- `Number.prototype.toString` on a finite number other than negative zero. -/
  numberToString : ℚ → JsString
  /-- SHA-256 of the UTF-8 encoding, in lower-case hexadecimal. -/
  sha256Hex : JsString → JsString
  /-- The test of `z.string().datetime({ offset: true })`. -/
  isDatetime : JsString → Bool

/-- How a promise settled. -/
inductive Settled (α : Type) where
  | fulfilled (value : α)
  | rejected
  deriving DecidableEq

/-- White space and line terminators, as `trim` removes them. -/
def isTrimmed (u : CodeUnit) : Bool :=
  (0x09 ≤ u && u ≤ 0x0D) || u == 0x20 || u == 0xA0 || u == 0x1680 ||
    (0x2000 ≤ u && u ≤ 0x200A) || u == 0x2028 || u == 0x2029 || u == 0x202F || u == 0x205F ||
    u == 0x3000 || u == 0xFEFF

/-- `String.prototype.trim`. -/
def trim (s : JsString) : JsString := ((s.dropWhile isTrimmed).reverse.dropWhile isTrimmed).reverse

/-- What is trimmed has nothing left to trim. -/
theorem trim_trim (s : JsString) : trim (trim s) = trim s := by
  have hleft : (trim s).dropWhile isTrimmed = trim s := by
    have hprefix : trim s <+: s.dropWhile isTrimmed := List.rdropWhile_prefix isTrimmed _
    refine List.dropWhile_eq_self_iff.mpr fun hl => ?_
    obtain ⟨rest, hrest⟩ := hprefix
    have hhead := List.dropWhile_eq_self_iff.mp (List.dropWhile_idempotent isTrimmed s)
    simp only [← hrest] at hhead
    have hfirst := hhead (by rw [List.length_append]; omega)
    rwa [List.getElem_append_left hl] at hfirst
  show ((trim s).dropWhile isTrimmed).rdropWhile isTrimmed = trim s
  rw [hleft]
  exact List.rdropWhile_idempotent isTrimmed _

/-- A text that begins with no space is not blank. -/
theorem trim_cons_ne_nil {u : CodeUnit} {rest : JsString} (h : isTrimmed u = false) :
    trim (u :: rest) ≠ [] := by
  unfold trim
  rw [List.dropWhile_cons_of_neg (by rw [h]; exact nofun), List.reverse_cons]
  intro hnil
  rw [List.reverse_eq_nil_iff, List.dropWhile_eq_nil_iff] at hnil
  have := hnil u (by simp)
  rw [h] at this
  cases this

theorem length_trim_le (s : JsString) : (trim s).length ≤ s.length := by
  unfold trim
  rw [List.length_reverse]
  refine (List.length_dropWhile_le isTrimmed _).trans ?_
  rw [List.length_reverse]
  exact List.length_dropWhile_le isTrimmed s

/-- What is left of a trimmed text begins with no space. -/
theorem isTrimmed_of_trim_eq {s rest : JsString} {u : CodeUnit} (h : trim s = u :: rest) :
    isTrimmed u = false := by
  rw [Bool.eq_false_iff]
  intro hspace
  have hagain : trim (u :: rest) = u :: rest := h ▸ trim_trim s
  have hshorter : trim (u :: rest) = trim rest := by
    unfold trim
    rw [List.dropWhile_cons_of_pos hspace]
  have hlength := length_trim_le rest
  rw [← hshorter, hagain, List.length_cons] at hlength
  omega

/-! ## A platform to evaluate on -/

namespace Reference

/-- The value of a decimal digit. -/
def digit (u : CodeUnit) : Option Int :=
  if 0x30 ≤ u ∧ u ≤ 0x39 then some (u.val - 0x30) else none

/-- The value of a run of decimal digits. -/
def digits (s : JsString) : Option Int :=
  s.foldlM (fun n u => (digit u).map fun d => 10 * n + d) 0

/-- Days from 1970-01-01 to a date of the proleptic Gregorian calendar. -/
def daysFromCivil (year month day : Int) : Int :=
  let y := if month ≤ 2 then year - 1 else year
  let era := y / 400
  let yearOfEra := y - era * 400
  let dayOfYear := (153 * (month + (if 2 < month then -3 else 9)) + 2) / 5 + day - 1
  era * 146097 + (yearOfEra * 365 + yearOfEra / 4 - yearOfEra / 100 + dayOfYear) - 719468

/-- The time value of a timestamp of the form `YYYY-MM-DDTHH:MM:SSZ`, and none for any other. -/
def dateParse : JsString → Option Int
  | [y₁, y₂, y₃, y₄, 0x2D, m₁, m₂, 0x2D, d₁, d₂, 0x54, h₁, h₂, 0x3A, n₁, n₂, 0x3A, s₁, s₂, 0x5A] => do
      let year ← digits [y₁, y₂, y₃, y₄]
      let month ← digits [m₁, m₂]
      let day ← digits [d₁, d₂]
      let hour ← digits [h₁, h₂]
      let minute ← digits [n₁, n₂]
      let second ← digits [s₁, s₂]
      if 1 ≤ month ∧ month ≤ 12 ∧ 1 ≤ day ∧ day ≤ 31 ∧ hour ≤ 23 ∧ minute ≤ 59 ∧ second ≤ 59 then
        some (1000 * (((daysFromCivil year month day * 24 + hour) * 60 + minute) * 60 + second))
      else none
  | _ => none

/-- A host for concrete inputs: timestamps in UTC to the second, strings compared by code units,
integers in decimal. Nothing evaluated on it computes a digest. -/
scoped instance : HostPlatform where
  dateParse := dateParse
  localeCompare a b := if a < b then -1 else if b < a then 1 else 0
  numberToString q := JsString.ofString (toString q.num)
  sha256Hex _ := List.replicate 64 0x30
  isDatetime s := (dateParse s).isSome

end Reference

end SharedOS.Foundation
