/-
SharedOS.Foundation.Text — ECMAScript strings and the JSON string literal, over any program.

A string is a finite sequence of 16-bit code units, lone surrogates included, so lengths, orders
and escapes are the ones the language has. `quote` is `JSON.stringify` on a string. A quoted
string is self-delimiting (`quote_append_inj`): whatever follows it, the text determines the
string. That one fact is what every injectivity result about JSON text rests on.

The reader of a literal is a relation (`Reads`), not a parser: it says which chunks of text stand
for which code unit, and no chunk is a proper prefix of another.
-/
import Mathlib.Data.Fin.Basic
import Mathlib.Data.List.Lex
import Mathlib.Data.List.Sort
import Mathlib.Order.Fin.Basic
import Mathlib.Tactic.Ring

namespace SharedOS.Foundation

/-! ## Strings as sequences of code units -/

/-- One UTF-16 code unit. -/
abbrev CodeUnit := Fin 65536

/-- An ECMAScript string. The order it inherits from `List` is the code-unit order of `<`. -/
abbrev JsString := List CodeUnit

instance neZero_codeUnits : NeZero 65536 := ⟨by decide⟩

instance lawfulBEq_jsString : LawfulBEq JsString := inferInstance

/-- The UTF-16 encoding of one Unicode scalar value. -/
def utf16 (c : Char) : List CodeUnit :=
  let n := c.toNat
  if n < 0x10000 then [Fin.ofNat _ n]
  else [Fin.ofNat _ (0xD800 + (n - 0x10000) / 0x400), Fin.ofNat _ (0xDC00 + (n - 0x10000) % 0x400)]

/-- A string literal of the source. -/
def JsString.ofString (s : String) : JsString := s.toList.flatMap utf16

instance : Coe String JsString := ⟨JsString.ofString⟩

/-- `Array.prototype.sort` without a comparator, on strings: stable, by code units. -/
def sortStrings (xs : List JsString) : List JsString := xs.insertionSort (· ≤ ·)

theorem sortStrings_perm (xs : List JsString) : (sortStrings xs).Perm xs :=
  List.perm_insertionSort _ xs

@[simp] theorem mem_sortStrings {x : JsString} {xs : List JsString} :
    x ∈ sortStrings xs ↔ x ∈ xs :=
  (sortStrings_perm xs).mem_iff

/-- Sorting forgets the order: two permutations of one list sort to the same list. -/
theorem sortStrings_eq_of_perm {xs ys : List JsString} (h : xs.Perm ys) :
    sortStrings xs = sortStrings ys := by
  have hsorted : ∀ zs : List JsString, (sortStrings zs).Pairwise (· ≤ ·) :=
    fun zs => List.pairwise_insertionSort (· ≤ ·) zs
  refine List.Perm.eq_of_pairwise' (hsorted xs) (hsorted ys) ?_
  exact (sortStrings_perm xs).trans (h.trans (sortStrings_perm ys).symm)

/-- `Array.prototype.join(",")`. -/
def commaJoin : List JsString → JsString
  | [] => []
  | x :: xs => x ++ xs.flatMap fun y => 0x2C :: y

/-! ## The JSON string literal -/

/-- The quotation mark, the reverse solidus and the small letter `u`. -/
def quotationMark : CodeUnit := 0x22

/-- The backslash of an escape. -/
def reverseSolidus : CodeUnit := 0x5C

/-- The letter after the backslash of a numeric escape. -/
def smallU : CodeUnit := 0x75

/-- The first unit of a surrogate pair. -/
def isHighSurrogate (u : CodeUnit) : Bool := 0xD800 ≤ u && u ≤ 0xDBFF

/-- The second unit of a surrogate pair. -/
def isLowSurrogate (u : CodeUnit) : Bool := 0xDC00 ≤ u && u ≤ 0xDFFF

/-- The lower-case hexadecimal digit of a nibble. -/
def hexDigit (n : Nat) : CodeUnit :=
  if n < 10 then Fin.ofNat _ (0x30 + n) else Fin.ofNat _ (0x57 + n)

/-- `\u` and four hexadecimal digits. -/
def unicodeEscape (u : CodeUnit) : JsString :=
  [reverseSolidus, smallU, hexDigit (u.val / 4096 % 16), hexDigit (u.val / 256 % 16),
    hexDigit (u.val / 16 % 16), hexDigit (u.val % 16)]

/-- The letter of a two-unit escape, for the code units that have one. -/
def shortEscape (u : CodeUnit) : Option CodeUnit :=
  if u = 0x08 then some 0x62
  else if u = 0x09 then some 0x74
  else if u = 0x0A then some 0x6E
  else if u = 0x0C then some 0x66
  else if u = 0x0D then some 0x72
  else if u = quotationMark then some quotationMark
  else if u = reverseSolidus then some reverseSolidus
  else none

/-- How `JSON.stringify` writes a code unit that is not half of a surrogate pair. -/
def escapeUnit (u : CodeUnit) : JsString :=
  match shortEscape u with
  | some e => [reverseSolidus, e]
  | none => if u < 0x20 then unicodeEscape u else [u]

/-- The inside of a JSON string literal. A surrogate pair is written verbatim and a lone
surrogate as an escape. -/
def quoteUnits : JsString → JsString
  | [] => []
  | [u] =>
    if isHighSurrogate u || isLowSurrogate u then unicodeEscape u else escapeUnit u
  | u :: v :: rest =>
    if isHighSurrogate u && isLowSurrogate v then u :: v :: quoteUnits rest
    else if isHighSurrogate u || isLowSurrogate u then unicodeEscape u ++ quoteUnits (v :: rest)
    else escapeUnit u ++ quoteUnits (v :: rest)

/-- `JSON.stringify` on a string. -/
def quote (s : JsString) : JsString := quotationMark :: (quoteUnits s ++ [quotationMark])

/-! ## Reading a literal back -/

/-- The chunks of literal text that stand for one code unit. -/
inductive ReadsUnit : JsString → CodeUnit → Prop
  | verbatim {u : CodeUnit} : u ≠ quotationMark → u ≠ reverseSolidus → ReadsUnit [u] u
  | short {u e : CodeUnit} : shortEscape u = some e → ReadsUnit [reverseSolidus, e] u
  | unicode (u : CodeUnit) : ReadsUnit (unicodeEscape u) u

/-- Literal text, chunk by chunk. -/
inductive Reads : JsString → JsString → Prop
  | nil : Reads [] []
  | cons {chunk text s : JsString} {u : CodeUnit} :
      ReadsUnit chunk u → Reads text s → Reads (chunk ++ text) (u :: s)

theorem hexDigit_inj {m n : Nat} (hm : m < 16) (hn : n < 16) (h : hexDigit m = hexDigit n) :
    m = n := by
  unfold hexDigit at h
  split at h <;> split at h <;> simp only [Fin.ext_iff, Fin.val_ofNat] at h <;> omega

theorem unicodeEscape_append_inj {u v : CodeUnit} {r r' : JsString}
    (h : unicodeEscape u ++ r = unicodeEscape v ++ r') : u = v ∧ r = r' := by
  simp only [unicodeEscape, List.cons_append, List.nil_append, List.cons.injEq, true_and] at h
  obtain ⟨h1, h2, h3, h4, hr⟩ := h
  have e1 := hexDigit_inj (by omega) (by omega) h1
  have e2 := hexDigit_inj (by omega) (by omega) h2
  have e3 := hexDigit_inj (by omega) (by omega) h3
  have e4 := hexDigit_inj (by omega) (by omega) h4
  have hu := u.isLt
  have hv := v.isLt
  exact ⟨Fin.ext (by omega), hr⟩

/-- The letter of a short escape is never the `u` of a long one. -/
theorem shortEscape_ne_smallU {u e : CodeUnit} (h : shortEscape u = some e) : e ≠ smallU := by
  unfold shortEscape at h
  intro he
  subst he
  repeat' split at h
  all_goals simp [smallU, quotationMark, reverseSolidus] at h

/-- The code unit a letter of a short escape stands for. -/
def shortUnescape (e : CodeUnit) : CodeUnit :=
  if e = 0x62 then 0x08
  else if e = 0x74 then 0x09
  else if e = 0x6E then 0x0A
  else if e = 0x66 then 0x0C
  else if e = 0x72 then 0x0D
  else e

theorem shortUnescape_of_shortEscape {u e : CodeUnit} (h : shortEscape u = some e) :
    shortUnescape e = u := by
  unfold shortEscape at h
  repeat' split at h
  all_goals cases h
  all_goals next hu => exact hu.symm

theorem shortEscape_inj {u v e : CodeUnit} (hu : shortEscape u = some e)
    (hv : shortEscape v = some e) : u = v :=
  (shortUnescape_of_shortEscape hu).symm.trans (shortUnescape_of_shortEscape hv)

/-- No chunk starts with the quotation mark that ends the literal. -/
theorem ReadsUnit.head_ne {chunk : JsString} {u : CodeUnit} (h : ReadsUnit chunk u)
    (x r : JsString) : chunk ++ x ≠ quotationMark :: r := by
  intro heq
  cases h with
  | verbatim hq _ => exact hq (List.cons.inj heq).1
  | short _ => exact absurd (List.cons.inj heq).1 (by decide)
  | unicode _ => exact absurd (List.cons.inj heq).1 (by decide)

/-- **Chunks are prefix-free**: the text determines the code unit and where its chunk ends. -/
theorem ReadsUnit.append_inj {c c' x x' : JsString} {u u' : CodeUnit} (h : ReadsUnit c u)
    (h' : ReadsUnit c' u') (heq : c ++ x = c' ++ x') : u = u' ∧ x = x' := by
  cases h with
  | verbatim _ hs =>
      cases h' with
      | verbatim _ _ => exact List.cons.inj heq
      | short _ => exact absurd (List.cons.inj heq).1 hs
      | unicode _ => exact absurd (List.cons.inj heq).1 hs
  | short he =>
      cases h' with
      | verbatim _ hs => exact absurd (List.cons.inj heq).1.symm hs
      | short he' =>
          simp only [List.cons_append, List.nil_append, List.cons.injEq, true_and] at heq
          obtain ⟨rfl, hx⟩ := heq
          exact ⟨shortEscape_inj he he', hx⟩
      | unicode _ =>
          have hletter := (List.cons.inj (List.cons.inj heq).2).1
          exact absurd hletter (shortEscape_ne_smallU he)
  | unicode _ =>
      cases h' with
      | verbatim _ hs => exact absurd (List.cons.inj heq).1.symm hs
      | short he' =>
          have hletter := (List.cons.inj (List.cons.inj heq).2).1
          exact absurd hletter.symm (shortEscape_ne_smallU he')
      | unicode _ => exact unicodeEscape_append_inj heq

/-- Two readings that end at the same quotation mark read the same string. -/
theorem Reads.append_inj {t s : JsString} (h : Reads t s) :
    ∀ {t' s' r r' : JsString}, Reads t' s' →
      t ++ quotationMark :: r = t' ++ quotationMark :: r' → s = s' ∧ r = r' := by
  induction h with
  | nil =>
      intro t' s' r r' h' heq
      cases h' with
      | nil => exact ⟨rfl, (List.cons.inj heq).2⟩
      | cons hc _ =>
          rw [List.append_assoc] at heq
          exact absurd heq.symm (hc.head_ne _ _)
  | cons hc _ ih =>
      intro t' s' r r' h' heq
      cases h' with
      | nil =>
          rw [List.append_assoc] at heq
          exact absurd heq (hc.head_ne _ _)
      | cons hc' ht' =>
          rw [List.append_assoc, List.append_assoc] at heq
          obtain ⟨rfl, hrest⟩ := hc.append_inj hc' heq
          obtain ⟨rfl, hr⟩ := ih ht' hrest
          exact ⟨rfl, hr⟩

theorem reads_escapeUnit (u : CodeUnit) : ReadsUnit (escapeUnit u) u := by
  unfold escapeUnit
  split
  · next e he => exact .short he
  · next hnone =>
      split
      · exact .unicode u
      · refine .verbatim ?_ ?_
        · rintro rfl
          simp [shortEscape, quotationMark] at hnone
        · rintro rfl
          simp [shortEscape, quotationMark, reverseSolidus] at hnone

/-- A surrogate needs no escape of its own. -/
theorem reads_surrogate {u : CodeUnit} (h : isHighSurrogate u = true ∨ isLowSurrogate u = true) :
    ReadsUnit [u] u := by
  refine .verbatim ?_ ?_
  · rintro rfl
    revert h
    decide
  · rintro rfl
    revert h
    decide

/-- What `JSON.stringify` writes is read back as the string it was given. -/
theorem reads_quoteUnits (s : JsString) : Reads (quoteUnits s) s := by
  fun_induction quoteUnits s with
  | case1 => exact .nil
  | case2 u h => simpa using Reads.cons (.unicode u) .nil
  | case3 u h => simpa using Reads.cons (reads_escapeUnit u) .nil
  | case4 u v rest h ih =>
      rw [Bool.and_eq_true] at h
      exact .cons (reads_surrogate (.inl h.1)) (.cons (reads_surrogate (.inr h.2)) ih)
  | case5 u v rest h1 h2 ih => exact .cons (.unicode u) ih
  | case6 u v rest h1 h2 ih => exact .cons (reads_escapeUnit u) ih

/-- **A quoted string is self-delimiting.** -/
theorem quote_append_inj {s t r r' : JsString} (h : quote s ++ r = quote t ++ r') :
    s = t ∧ r = r' := by
  simp only [quote, List.cons_append, List.append_assoc, List.nil_append, List.cons.injEq,
    true_and] at h
  exact (reads_quoteUnits s).append_inj (reads_quoteUnits t) h

end SharedOS.Foundation
