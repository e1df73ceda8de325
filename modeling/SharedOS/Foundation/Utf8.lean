/-
SharedOS.Foundation.Utf8 — text as bytes, the way `TextEncoder` and `TextDecoder` convert it.

The encoder reads a string as scalar values, a lone surrogate as U+FFFD, and writes each. The
decoder is a machine over bytes that never fails: a byte that cannot stand where it does ends the
sequence before it with U+FFFD and is read again from the start. On what the encoder writes it never
comes to that (`decodeFrom_utf8Char`), so a text of scalar values comes back as it was, but for a
byte order mark at its front. JSON text is one (`stringify_wellFormed`), since a lone surrogate
is escaped there.
-/
import SharedOS.Foundation.Base64
import SharedOS.Foundation.Json

namespace SharedOS.Foundation

namespace Utf8

/-! ## Scalar values -/

/-- U+FFFD, which stands for what is no scalar value. -/
def replacementCharacter : Char := Char.ofNat 0xFFFD

/-- The scalar value of a surrogate pair. -/
def pairValue (high low : CodeUnit) : Char :=
  Char.ofNat (0x10000 + (high.val - 0xD800) * 0x400 + (low.val - 0xDC00))

/-- The scalar value of a code unit on its own. -/
def unitValue (u : CodeUnit) : Char :=
  if isHighSurrogate u || isLowSurrogate u then replacementCharacter else Char.ofNat u.val

/-- The string as scalar values. -/
def scalarValues : JsString → List Char
  | [] => []
  | [u] => [unitValue u]
  | u :: v :: rest =>
    if isHighSurrogate u && isLowSurrogate v then pairValue u v :: scalarValues rest
    else unitValue u :: scalarValues (v :: rest)

/-- The string of the scalar values. -/
def ofScalarValues (chars : List Char) : JsString := chars.flatMap utf16

/-- A string without lone surrogates. -/
def WellFormed (s : JsString) : Prop := ∃ chars : List Char, s = ofScalarValues chars

theorem isHighSurrogate_iff {u : CodeUnit} :
    isHighSurrogate u = true ↔ 0xD800 ≤ u.val ∧ u.val ≤ 0xDBFF := by
  simp only [isHighSurrogate, Bool.and_eq_true, decide_eq_true_eq, Fin.le_def]
  exact Iff.rfl

theorem isLowSurrogate_iff {u : CodeUnit} :
    isLowSurrogate u = true ↔ 0xDC00 ≤ u.val ∧ u.val ≤ 0xDFFF := by
  simp only [isLowSurrogate, Bool.and_eq_true, decide_eq_true_eq, Fin.le_def]
  exact Iff.rfl

/-- Where the scalar values lie. -/
theorem char_range (c : Char) : c.toNat < 0xD800 ∨ 0xDFFF < c.toNat ∧ c.toNat < 0x110000 := c.valid

theorem toNat_ofNat {n : ℕ} (h : n < 0xD800 ∨ 0xDFFF < n ∧ n < 0x110000) :
    (Char.ofNat n).toNat = n := by
  have hvalid : n.isValidChar := h
  rw [Char.ofNat, dif_pos hvalid]
  rfl

theorem scalarValues_single {u : CodeUnit} (hhigh : isHighSurrogate u = false) (rest : JsString) :
    scalarValues (u :: rest) = unitValue u :: scalarValues rest := by
  cases rest with
  | nil => rfl
  | cons v rest => rw [scalarValues, hhigh, Bool.false_and, if_neg Bool.false_ne_true]

/-- One scalar value is read off the front of the string it begins. -/
theorem scalarValues_utf16 (c : Char) (rest : JsString) :
    scalarValues (utf16 c ++ rest) = c :: scalarValues rest := by
  have hrange := char_range c
  unfold utf16
  dsimp only
  split
  · next hsmall =>
      have hval : (Fin.ofNat 65536 c.toNat).val = c.toNat := by
        rw [Fin.val_ofNat]
        omega
      have hhigh : isHighSurrogate (Fin.ofNat 65536 c.toNat) = false := by
        rw [Bool.eq_false_iff, Ne, isHighSurrogate_iff, hval]
        omega
      have hlow : isLowSurrogate (Fin.ofNat 65536 c.toNat) = false := by
        rw [Bool.eq_false_iff, Ne, isLowSurrogate_iff, hval]
        omega
      rw [List.singleton_append, scalarValues_single hhigh, unitValue, hhigh, hlow, Bool.or_self,
        if_neg Bool.false_ne_true, hval, Char.ofNat_toNat]
  · next hlarge =>
      set high := Fin.ofNat 65536 (0xD800 + (c.toNat - 0x10000) / 0x400) with hhigh
      set low := Fin.ofNat 65536 (0xDC00 + (c.toNat - 0x10000) % 0x400) with hlow
      have hhighVal : high.val = 0xD800 + (c.toNat - 0x10000) / 0x400 := by
        rw [hhigh, Fin.val_ofNat]
        omega
      have hlowVal : low.val = 0xDC00 + (c.toNat - 0x10000) % 0x400 := by
        rw [hlow, Fin.val_ofNat]
        omega
      have hpair : (isHighSurrogate high && isLowSurrogate low) = true := by
        rw [Bool.and_eq_true, isHighSurrogate_iff, isLowSurrogate_iff]
        omega
      have hvalue : pairValue high low = c := by
        have hnat : 0x10000 + (high.val - 0xD800) * 0x400 + (low.val - 0xDC00) = c.toNat := by
          omega
        rw [pairValue, hnat, Char.ofNat_toNat]
      show scalarValues (high :: low :: rest) = _
      rw [scalarValues, if_pos hpair, hvalue]

/-- **The scalar values of a string made of scalar values.** -/
theorem scalarValues_ofScalarValues (chars : List Char) :
    scalarValues (ofScalarValues chars) = chars := by
  induction chars with
  | nil => rfl
  | cons c rest ih =>
      rw [ofScalarValues, List.flatMap_cons, scalarValues_utf16]
      exact congrArg (c :: ·) ih

/-! ## Bytes -/

/-- The bytes of a scalar value. -/
def utf8Char (c : Char) : List Byte :=
  let n := c.toNat
  if n < 0x80 then [Fin.ofNat 256 n]
  else if n < 0x800 then [Fin.ofNat 256 (0xC0 + n / 64), Fin.ofNat 256 (0x80 + n % 64)]
  else if n < 0x10000 then
    [Fin.ofNat 256 (0xE0 + n / 4096), Fin.ofNat 256 (0x80 + n / 64 % 64),
      Fin.ofNat 256 (0x80 + n % 64)]
  else
    [Fin.ofNat 256 (0xF0 + n / 262144), Fin.ofNat 256 (0x80 + n / 4096 % 64),
      Fin.ofNat 256 (0x80 + n / 64 % 64), Fin.ofNat 256 (0x80 + n % 64)]

/-- `TextEncoder.prototype.encode`. -/
def textEncode (s : JsString) : List Byte := (scalarValues s).flatMap utf8Char

/-- A sequence the decoder is inside of: how many bytes are to come, between which bounds the next
one lies, and the bits so far. -/
structure Pending where
  needed : ℕ
  lower : ℕ
  upper : ℕ
  point : ℕ

/-- The first byte of a sequence. -/
def firstByte (b : ℕ) : List Char × Option Pending :=
  if b < 0x80 then ([Char.ofNat b], none)
  else if 0xC2 ≤ b ∧ b ≤ 0xDF then ([], some ⟨1, 0x80, 0xBF, b - 0xC0⟩)
  else if 0xE0 ≤ b ∧ b ≤ 0xEF then
    ([], some ⟨2, if b = 0xE0 then 0xA0 else 0x80, if b = 0xED then 0x9F else 0xBF, b - 0xE0⟩)
  else if 0xF0 ≤ b ∧ b ≤ 0xF4 then
    ([], some ⟨3, if b = 0xF0 then 0x90 else 0x80, if b = 0xF4 then 0x8F else 0xBF, b - 0xF0⟩)
  else ([replacementCharacter], none)

/-- A further byte. One out of bounds ends the sequence and is the first of another. -/
def nextByte (p : Pending) (b : ℕ) : List Char × Option Pending :=
  if p.lower ≤ b ∧ b ≤ p.upper then
    let point := p.point * 64 + b % 64
    if p.needed = 1 then ([Char.ofNat point], none)
    else ([], some ⟨p.needed - 1, 0x80, 0xBF, point⟩)
  else (replacementCharacter :: (firstByte b).1, (firstByte b).2)

/-- One byte, after what stands pending. -/
def decodeByte : Option Pending → ℕ → List Char × Option Pending
  | none => firstByte
  | some p => nextByte p

/-- The UTF-8 decoder, from where it stands to the end of the bytes. -/
def decodeFrom : Option Pending → List Byte → List Char
  | none, [] => []
  | some _, [] => [replacementCharacter]
  | state, b :: rest => (decodeByte state b.val).1 ++ decodeFrom (decodeByte state b.val).2 rest

/-- `TextDecoder.prototype.decode`: a byte order mark at the front is no part of the text. -/
def textDecode (bytes : List Byte) : JsString :=
  let chars := decodeFrom none bytes
  ofScalarValues (if chars.head? = some (Char.ofNat 0xFEFF) then chars.tail else chars)

/-! ## Reading back what was written -/

theorem decodeFrom_cons (state : Option Pending) (b : Byte) (rest : List Byte) :
    decodeFrom state (b :: rest) =
      (decodeByte state b.val).1 ++ decodeFrom (decodeByte state b.val).2 rest := by
  cases state <;> rfl

/-- A further byte within its bounds, before the last. -/
theorem decodeFrom_next {needed lower upper point n : ℕ} (hneeded : needed ≠ 1)
    (hbounds : lower ≤ n ∧ n ≤ upper) (hbyte : n < 256) (rest : List Byte) :
    decodeFrom (some ⟨needed, lower, upper, point⟩) (Fin.ofNat 256 n :: rest) =
      decodeFrom (some ⟨needed - 1, 0x80, 0xBF, point * 64 + n % 64⟩) rest := by
  rw [decodeFrom_cons, Fin.val_ofNat, Nat.mod_eq_of_lt hbyte, decodeByte, nextByte, if_pos hbounds]
  dsimp only
  rw [if_neg hneeded]
  rfl

/-- The last byte of a sequence, within its bounds. -/
theorem decodeFrom_last {lower upper point n : ℕ} (hbounds : lower ≤ n ∧ n ≤ upper)
    (hbyte : n < 256) (rest : List Byte) :
    decodeFrom (some ⟨1, lower, upper, point⟩) (Fin.ofNat 256 n :: rest) =
      Char.ofNat (point * 64 + n % 64) :: decodeFrom none rest := by
  rw [decodeFrom_cons, Fin.val_ofNat, Nat.mod_eq_of_lt hbyte, decodeByte, nextByte, if_pos hbounds]
  rfl

theorem decodeFrom_first {n : ℕ} (hbyte : n < 256) (rest : List Byte) :
    decodeFrom none (Fin.ofNat 256 n :: rest) =
      (firstByte n).1 ++ decodeFrom (firstByte n).2 rest := by
  rw [decodeFrom_cons, Fin.val_ofNat, Nat.mod_eq_of_lt hbyte]
  rfl

/-- **One scalar value is read off the front of its bytes.** -/
theorem decodeFrom_utf8Char (c : Char) (rest : List Byte) :
    decodeFrom none (utf8Char c ++ rest) = c :: decodeFrom none rest := by
  have hrange := char_range c
  have hback : ∀ m, m = c.toNat → Char.ofNat m = c := fun m hm => by rw [hm, Char.ofNat_toNat]
  unfold utf8Char
  dsimp only
  split_ifs with h1 h2 h3
  · rw [List.singleton_append, decodeFrom_first (by omega), firstByte, if_pos h1, Char.ofNat_toNat]
    rfl
  · -- two bytes: the first is at least 0xC2, as the value is at least 0x80
    simp only [List.cons_append, List.nil_append]
    rw [decodeFrom_first (by omega), firstByte, if_neg (by omega), if_pos (by omega),
      List.nil_append, decodeFrom_last (by omega) (by omega), hback _ (by omega)]
  · -- three bytes: the bounds of the second keep out short forms and surrogates
    simp only [List.cons_append, List.nil_append]
    rw [decodeFrom_first (by omega), firstByte, if_neg (by omega), if_neg (by omega),
      if_pos (by omega), List.nil_append, decodeFrom_next (by omega) (by split_ifs <;> omega)
      (by omega), decodeFrom_last (by omega) (by omega), hback _ (by omega)]
  · -- four bytes: the bounds of the second keep out short forms and what is above 0x10FFFF
    simp only [List.cons_append, List.nil_append]
    rw [decodeFrom_first (by omega), firstByte, if_neg (by omega), if_neg (by omega),
      if_neg (by omega), if_pos (by omega), List.nil_append,
      decodeFrom_next (by omega) (by split_ifs <;> omega) (by omega),
      decodeFrom_next (by omega) (by omega) (by omega), decodeFrom_last (by omega) (by omega),
      hback _ (by omega)]

theorem decodeFrom_utf8 (chars : List Char) : decodeFrom none (chars.flatMap utf8Char) = chars := by
  induction chars with
  | nil => rfl
  | cons c rest ih => rw [List.flatMap_cons, decodeFrom_utf8Char, ih]

/-- **A well-formed text that begins with no byte order mark is read back.** -/
theorem textDecode_textEncode {s : JsString} (hs : WellFormed s) (hmark : s.head? ≠ some 0xFEFF) :
    textDecode (textEncode s) = s := by
  obtain ⟨chars, rfl⟩ := hs
  have hfirst : chars.head? ≠ some (Char.ofNat 0xFEFF) := by
    intro hhead
    apply hmark
    obtain ⟨rest, rfl⟩ := List.head?_eq_some_iff.mp hhead
    rfl
  unfold textDecode textEncode
  rw [scalarValues_ofScalarValues, decodeFrom_utf8]
  dsimp only
  rw [if_neg hfirst]

/-! ## JSON text is well formed -/

theorem WellFormed.nil : WellFormed [] := ⟨[], rfl⟩

theorem WellFormed.append {s t : JsString} (hs : WellFormed s) (ht : WellFormed t) :
    WellFormed (s ++ t) := by
  obtain ⟨chars, rfl⟩ := hs
  obtain ⟨chars', rfl⟩ := ht
  exact ⟨chars ++ chars', (List.flatMap_append).symm⟩

theorem wellFormed_ofString (s : String) : WellFormed (s : JsString) := ⟨s.toList, rfl⟩

/-- A code unit that is no surrogate is a scalar value. -/
theorem WellFormed.cons {u : CodeUnit} {s : JsString}
    (hu : (isHighSurrogate u || isLowSurrogate u) = false) (hs : WellFormed s) :
    WellFormed (u :: s) := by
  obtain ⟨hhigh, hlow⟩ := Bool.or_eq_false_iff.mp hu
  rw [Bool.eq_false_iff, Ne, isHighSurrogate_iff] at hhigh
  rw [Bool.eq_false_iff, Ne, isLowSurrogate_iff] at hlow
  have hnat : (Char.ofNat u.val).toNat = u.val := toNat_ofNat (by omega)
  have hunit : WellFormed [u] := by
    refine ⟨[Char.ofNat u.val], ?_⟩
    rw [ofScalarValues, List.flatMap_singleton, utf16, hnat, if_pos u.isLt]
    exact congrArg (fun v => [v]) (Fin.ext (by rw [Fin.val_ofNat, Nat.mod_eq_of_lt u.isLt]))
  exact hunit.append hs

/-- A surrogate pair is a scalar value. -/
theorem WellFormed.pair {high low : CodeUnit} {s : JsString}
    (h : (isHighSurrogate high && isLowSurrogate low) = true) (hs : WellFormed s) :
    WellFormed (high :: low :: s) := by
  rw [Bool.and_eq_true, isHighSurrogate_iff, isLowSurrogate_iff] at h
  have hnat : (pairValue high low).toNat =
      0x10000 + (high.val - 0xD800) * 0x400 + (low.val - 0xDC00) := toNat_ofNat (by omega)
  have hpair : WellFormed [high, low] := by
    refine ⟨[pairValue high low], ?_⟩
    rw [ofScalarValues, List.flatMap_singleton, utf16, hnat, if_neg (by omega)]
    simp only [List.cons.injEq, and_true]
    refine ⟨Fin.ext ?_, Fin.ext ?_⟩
    all_goals
      rw [Fin.val_ofNat]
      omega
  exact hpair.append hs

/-- What is written with ASCII is well formed. -/
theorem WellFormed.ascii {s : JsString} (h : ∀ u ∈ s, u.val < 0x80) : WellFormed s := by
  induction s with
  | nil => exact .nil
  | cons u rest ih =>
      have hu := h u List.mem_cons_self
      have hrest := ih fun v hv => h v (List.mem_cons_of_mem _ hv)
      refine hrest.cons ?_
      rw [Bool.or_eq_false_iff, Bool.eq_false_iff, Bool.eq_false_iff, Ne, Ne, isHighSurrogate_iff,
        isLowSurrogate_iff]
      omega

theorem hexDigit_lt (n : ℕ) (h : n < 16) : (hexDigit n).val < 0x80 := by
  unfold hexDigit
  split
  · rw [Fin.val_ofNat]
    omega
  · rw [Fin.val_ofNat]
    omega

theorem wellFormed_unicodeEscape (u : CodeUnit) : WellFormed (unicodeEscape u) := by
  refine .ascii fun v hv => ?_
  simp only [unicodeEscape, List.mem_cons, List.not_mem_nil, or_false] at hv
  rcases hv with rfl | rfl | rfl | rfl | rfl | rfl
  · decide
  · decide
  all_goals exact hexDigit_lt _ (by omega)

theorem shortEscape_lt {u e : CodeUnit} (h : shortEscape u = some e) : e.val < 0x80 := by
  unfold shortEscape at h
  repeat' split at h
  all_goals cases h
  all_goals decide

/-- An escape is ASCII, and what needs none is no surrogate here. -/
theorem wellFormed_escapeUnit {u : CodeUnit}
    (hu : (isHighSurrogate u || isLowSurrogate u) = false) : WellFormed (escapeUnit u) := by
  unfold escapeUnit
  split
  · next e he =>
      refine .ascii fun v hv => ?_
      simp only [List.mem_cons, List.not_mem_nil, or_false] at hv
      rcases hv with rfl | rfl
      · decide
      · exact shortEscape_lt he
  · split
    · exact wellFormed_unicodeEscape u
    · exact .cons hu .nil

theorem wellFormed_quoteUnits (s : JsString) : WellFormed (quoteUnits s) := by
  fun_induction quoteUnits s with
  | case1 => exact .nil
  | case2 u _ => exact wellFormed_unicodeEscape u
  | case3 u h => exact wellFormed_escapeUnit (Bool.eq_false_of_not_eq_true h)
  | case4 u v rest h ih => exact ih.pair h
  | case5 u v rest _ _ ih => exact (wellFormed_unicodeEscape u).append ih
  | case6 u v rest _ h ih => exact (wellFormed_escapeUnit (Bool.eq_false_of_not_eq_true h)).append ih

/-- **A string literal has no lone surrogate**, whatever the string has. -/
theorem wellFormed_quote (s : JsString) : WellFormed (quote s) :=
  .cons (by decide) ((wellFormed_quoteUnits s).append (.cons (by decide) .nil))

theorem wellFormed_commaJoin {texts : List JsString} (h : ∀ t ∈ texts, WellFormed t) :
    WellFormed (commaJoin texts) := by
  have hjoined : ∀ rest : List JsString, (∀ t ∈ rest, WellFormed t) →
      WellFormed (rest.flatMap fun t => 0x2C :: t) := by
    intro rest hrest
    induction rest with
    | nil => exact .nil
    | cons t rest ih =>
        rw [List.flatMap_cons]
        refine WellFormed.append (.cons (by decide) (hrest t List.mem_cons_self)) ?_
        exact ih fun t' ht' => hrest t' (List.mem_cons_of_mem _ ht')
  cases texts with
  | nil => exact .nil
  | cons t rest =>
      refine (h t List.mem_cons_self).append (hjoined rest ?_)
      exact fun t' ht' => h t' (List.mem_cons_of_mem _ ht')

/-- **What `JSON.stringify` writes is well formed**, where the text of every number is. -/
theorem stringify_wellFormed {fmt : ℚ → JsString} {N : JsNumber → Prop}
    (hnumbers : ∀ x, N x → WellFormed (Json.numberText fmt x)) {v : Json} (hv : v.NumbersIn N) :
    WellFormed (v.stringify fmt) := by
  induction v with
  | null => exact wellFormed_ofString "null"
  | bool b =>
      cases b with
      | false => exact wellFormed_ofString "false"
      | true => exact wellFormed_ofString "true"
  | num x =>
      cases hv with
      | num hx => exact hnumbers x hx
  | str s => exact wellFormed_quote s
  | arr items ih =>
      cases hv with
      | arr hitems =>
          simp only [Json.stringify, Json.stringifyItems_eq_map]
          refine .cons (by decide) (WellFormed.append ?_ (.cons (by decide) .nil))
          refine wellFormed_commaJoin fun t ht => ?_
          obtain ⟨v, hv, rfl⟩ := List.mem_map.mp ht
          exact ih v hv (hitems v hv)
  | obj entries ih =>
      cases hv with
      | obj hentries =>
          simp only [Json.stringify, Json.stringifyEntries_eq_map, List.map_map]
          refine .cons (by decide) (WellFormed.append ?_ (.cons (by decide) .nil))
          refine wellFormed_commaJoin fun t ht => ?_
          obtain ⟨e, he, rfl⟩ := List.mem_map.mp ht
          exact (wellFormed_quote e.1).append (.cons (by decide) (ih e he (hentries e he)))

end Utf8

end SharedOS.Foundation
