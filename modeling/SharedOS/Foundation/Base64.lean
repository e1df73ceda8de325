/-
SharedOS.Foundation.Base64 — bytes as base64 text, and the lenient reading of it.

Three bytes are four sextets. What is left over at the end, one byte or two, is filled up with zero
bits and marked with padding. `btoa` writes the marks and `atob` wants the length they make, so a
text without them is read once they have been restored. All of it rests on the round trip of the
bits (`bytesOf_sextets`) and on one count: four sextets a group, with a rest of none, two or three
(`length_sextets`).
-/
import SharedOS.Foundation.Text
import Mathlib.Data.List.DropRight
import Mathlib.Data.List.Basic

namespace SharedOS.Foundation

/-- Eight bits. -/
abbrev Byte := Fin 256

instance neZeroByte : NeZero 256 := ⟨by decide⟩

/-- Six bits of a text. -/
abbrev Sextet := Fin 64

namespace Base64

/-! ## Bits -/

/-- The bits six at a time. A rest is filled up with zero bits. -/
def sextets : List Byte → List Sextet
  | [] => []
  | [a] => [Fin.ofNat 64 (a.val / 4), Fin.ofNat 64 (a.val % 4 * 16)]
  | [a, b] =>
    [Fin.ofNat 64 (a.val / 4), Fin.ofNat 64 (a.val % 4 * 16 + b.val / 16),
      Fin.ofNat 64 (b.val % 16 * 4)]
  | a :: b :: c :: rest =>
    Fin.ofNat 64 (a.val / 4) :: Fin.ofNat 64 (a.val % 4 * 16 + b.val / 16) ::
      Fin.ofNat 64 (b.val % 16 * 4 + c.val / 64) :: Fin.ofNat 64 (c.val % 64) :: sextets rest

/-- The whole bytes of the bits. What is left of a byte is dropped. -/
def bytesOf : List Sextet → List Byte
  | p :: q :: r :: s :: rest =>
    Fin.ofNat 256 (p.val * 4 + q.val / 16) :: Fin.ofNat 256 (q.val % 16 * 16 + r.val / 4) ::
      Fin.ofNat 256 (r.val % 4 * 64 + s.val) :: bytesOf rest
  | [p, q, r] =>
    [Fin.ofNat 256 (p.val * 4 + q.val / 16), Fin.ofNat 256 (q.val % 16 * 16 + r.val / 4)]
  | [p, q] => [Fin.ofNat 256 (p.val * 4 + q.val / 16)]
  | _ => []

/-- **The bits of the bytes are the bytes.** -/
theorem bytesOf_sextets (bytes : List Byte) : bytesOf (sextets bytes) = bytes := by
  fun_induction sextets bytes with
  | case1 => rfl
  | case2 a =>
      simp only [bytesOf, Fin.val_ofNat, List.cons.injEq, and_true]
      exact Fin.ext (by simp only [Fin.val_ofNat]; omega)
  | case3 a b =>
      simp only [bytesOf, Fin.val_ofNat, List.cons.injEq, and_true]
      refine ⟨Fin.ext ?_, Fin.ext ?_⟩
      all_goals simp only [Fin.val_ofNat]; omega
  | case4 a b c rest ih =>
      simp only [bytesOf, Fin.val_ofNat, List.cons.injEq]
      refine ⟨Fin.ext ?_, Fin.ext ?_, Fin.ext ?_, ih⟩
      all_goals simp only [Fin.val_ofNat]; omega

/-- Four sextets for every three bytes, and two or three for a rest. -/
theorem length_sextets (bytes : List Byte) :
    (sextets bytes).length = (bytes.length * 4 + 2) / 3 := by
  fun_induction sextets bytes with
  | case1 => rfl
  | case2 a => simp
  | case3 a b => simp
  | case4 a b c rest ih =>
      simp only [List.length_cons, ih]
      omega

/-! ## The alphabet -/

/-- The character of six bits: `A`–`Z`, `a`–`z`, `0`–`9`, `+` and `/`. -/
def digit (s : Sextet) : CodeUnit :=
  if s.val < 26 then Fin.ofNat _ (0x41 + s.val)
  else if s.val < 52 then Fin.ofNat _ (0x61 + (s.val - 26))
  else if s.val < 62 then Fin.ofNat _ (0x30 + (s.val - 52))
  else if s.val = 62 then 0x2B
  else 0x2F

/-- The bits of a character of the alphabet. -/
def digitValue (u : CodeUnit) : Option Sextet :=
  if 0x41 ≤ u ∧ u ≤ 0x5A then some (Fin.ofNat 64 (u.val - 0x41))
  else if 0x61 ≤ u ∧ u ≤ 0x7A then some (Fin.ofNat 64 (u.val - 0x61 + 26))
  else if 0x30 ≤ u ∧ u ≤ 0x39 then some (Fin.ofNat 64 (u.val - 0x30 + 52))
  else if u = 0x2B then some 62
  else if u = 0x2F then some 63
  else none

@[simp] theorem digitValue_digit (s : Sextet) : digitValue (digit s) = some s := by
  revert s
  decide

/-- The padding of a text. -/
def equalsSign : CodeUnit := 0x3D

/-- ASCII white space, which `atob` passes over. -/
def isAsciiSpace (u : CodeUnit) : Bool := u = 0x09 || u = 0x0A || u = 0x0C || u = 0x0D || u = 0x20

theorem digit_ne_equalsSign (s : Sextet) : digit s ≠ equalsSign := by
  revert s
  decide

theorem isAsciiSpace_digit (s : Sextet) : isAsciiSpace (digit s) = false := by
  revert s
  decide

theorem mapM_digitValue (xs : List Sextet) : (xs.map digit).mapM digitValue = some xs := by
  induction xs with
  | nil => rfl
  | cons s rest ih =>
      rw [List.map_cons, List.mapM_cons, digitValue_digit, ih]
      rfl

/-! ## Text -/

/-- The marks that fill a text up to a multiple of four. -/
def padding (length : ℕ) : JsString := List.replicate ((4 - length % 4) % 4) equalsSign

/-- `btoa` on the binary string of the bytes. -/
def btoa (bytes : List Byte) : JsString :=
  let digits := (sextets bytes).map digit
  digits ++ padding digits.length

/-- One mark or two at the end are no part of the text. -/
def dropPadding (text : JsString) : JsString :=
  if text.drop (text.length - 2) = [equalsSign, equalsSign] then text.take (text.length - 2)
  else if text.drop (text.length - 1) = [equalsSign] then text.take (text.length - 1)
  else text

/-- `atob`, which throws on what is no base64: other characters, or a length that leaves six bits. -/
def atob (data : JsString) : Option (List Byte) :=
  let data := data.filter fun u => !isAsciiSpace u
  let data := if data.length % 4 = 0 then dropPadding data else data
  if data.length % 4 = 1 then none else (data.mapM digitValue).map bytesOf

theorem filter_digits (xs : List Sextet) (n : ℕ) :
    (xs.map digit ++ List.replicate n equalsSign).filter (fun u => !isAsciiSpace u) =
      xs.map digit ++ List.replicate n equalsSign := by
  refine List.filter_eq_self.mpr fun u hu => ?_
  rcases List.mem_append.mp hu with hdigit | hmark
  · obtain ⟨s, -, rfl⟩ := List.mem_map.mp hdigit
    rw [isAsciiSpace_digit]
    rfl
  · rw [List.eq_of_mem_replicate hmark]
    decide

/-- A list of digits ends in no mark. -/
theorem drop_digits_ne (xs : List Sextet) (n : ℕ) (rest : JsString) :
    (xs.map digit).drop n ≠ equalsSign :: rest := by
  intro h
  have hmem : equalsSign ∈ xs.map digit := by
    refine List.mem_of_mem_drop (i := n) ?_
    rw [h]
    exact List.mem_cons_self
  obtain ⟨s, -, hs⟩ := List.mem_map.mp hmem
  exact digit_ne_equalsSign s hs

/-- **The marks are found again**, however many they are. -/
theorem dropPadding_padding (xs : List Sextet) (hlength : xs.length % 4 ≠ 1) :
    dropPadding (xs.map digit ++ padding (xs.map digit).length) = xs.map digit := by
  unfold dropPadding padding
  rw [List.length_map]
  have hrest : xs.length % 4 = 0 ∨ xs.length % 4 = 2 ∨ xs.length % 4 = 3 := by omega
  rcases hrest with h | h | h
  · -- whole groups: the text ends in a digit
    rw [h]
    simp only [Nat.sub_zero, Nat.mod_self, List.replicate_zero, List.append_nil]
    rw [if_neg (drop_digits_ne xs _ _), if_neg (drop_digits_ne xs _ _)]
  · rw [h]
    have hsize : (xs.map digit ++ List.replicate ((4 - 2) % 4) equalsSign).length - 2 =
        (xs.map digit).length := by simp
    have htwo : List.replicate ((4 - 2) % 4) equalsSign = [equalsSign, equalsSign] := rfl
    rw [hsize, List.drop_left, if_pos htwo, List.take_left]
  · rw [h]
    have hsize : (xs.map digit ++ List.replicate ((4 - 3) % 4) equalsSign).length - 1 =
        (xs.map digit).length := by simp
    have hone : List.replicate ((4 - 3) % 4) equalsSign = [equalsSign] := rfl
    rw [hsize, List.drop_left, List.take_left, if_pos hone, ite_eq_right_iff]
    -- one mark is not two: a digit stands before it
    intro htwo
    exfalso
    have hpos : 0 < (xs.map digit).length := by
      rw [List.length_map]
      omega
    have hcut : (xs.map digit ++ List.replicate ((4 - 3) % 4) equalsSign).length - 2 ≤
        (xs.map digit).length := by
      simp only [List.length_append, List.length_replicate]
      omega
    rw [List.drop_append_of_le_length hcut] at htwo
    have hdigits : (xs.map digit).drop
        ((xs.map digit ++ List.replicate ((4 - 3) % 4) equalsSign).length - 2) = [equalsSign] :=
      List.append_cancel_right (htwo : _ ++ [equalsSign] = [equalsSign] ++ [equalsSign])
    exact drop_digits_ne xs _ _ hdigits

/-- **What the digits and their marks stand for**: `atob` reads the bits of any digits that make
whole bytes. -/
theorem atob_digits (xs : List Sextet) (hlength : xs.length % 4 ≠ 1) :
    atob (xs.map digit ++ padding (xs.map digit).length) = some (bytesOf xs) := by
  have hsize : (xs.map digit ++ padding (xs.map digit).length).length % 4 = 0 := by
    simp only [padding, List.length_append, List.length_replicate]
    omega
  have hfilter := filter_digits xs ((4 - (xs.map digit).length % 4) % 4)
  unfold atob
  dsimp only
  rw [show (xs.map digit ++ padding (xs.map digit).length).filter (fun u => !isAsciiSpace u) =
    xs.map digit ++ padding (xs.map digit).length from hfilter, if_pos hsize,
    dropPadding_padding xs hlength, List.length_map, if_neg hlength, mapM_digitValue]
  rfl

/-- `atob` reads what `btoa` wrote. -/
theorem atob_btoa (bytes : List Byte) : atob (btoa bytes) = some bytes := by
  have hlength : (sextets bytes).length % 4 ≠ 1 := by
    rw [length_sextets]
    omega
  have hread := atob_digits (sextets bytes) hlength
  rwa [bytesOf_sextets] at hread

end Base64

end SharedOS.Foundation
