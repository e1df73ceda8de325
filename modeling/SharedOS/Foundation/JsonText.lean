/-
SharedOS.Foundation.JsonText — `JSON.parse`, and what of a value its text carries.

The reader is the grammar of JSON by recursive descent. Every nested read takes one unit of fuel, and
a text holds more code units than any value in it nests, so the length of the text is enough of it. A
number is read by its decimal value and rounded to a double, and an object takes its entries one after
another, so that a key written twice keeps its first place and its last value.

What is read back of a value that was written (`jsonParse_stringify`) is the value as its text carries
it (`reread`): a negative zero as zero, no number that is not finite, and the keys of every object in
the order of properties. How a finite number is written is a parameter, of which only the numbers that
occur are asked to read back.
-/
import Mathlib.Data.Rat.Floor
import SharedOS.Foundation.ObjectHeap

namespace SharedOS.Foundation

/-! ## Numbers -/

/-- One of the ten digits. -/
def isDecimalDigit (u : CodeUnit) : Bool := 0x30 ≤ u && u ≤ 0x39

/-- The units a number is written with. -/
def isLiteralUnit (u : CodeUnit) : Bool := Json.isNumberUnit u || u = 0x45

/-- The value of a run of digits. -/
def digitsValue (s : JsString) : ℕ := s.foldl (fun n u => 10 * n + (u.val - 0x30)) 0

/-- The sign in front, if the text has one of these. -/
def splitSign (plus : Bool) : JsString → Bool × JsString
  | [] => (false, [])
  | u :: rest => if u = 0x2D then (true, rest) else if plus ∧ u = 0x2B then (false, rest)
      else (false, u :: rest)

/-- The fraction of a literal, and what follows it. -/
def fractionDigits : JsString → Option (JsString × JsString)
  | [] => some ([], [])
  | u :: rest =>
    if u = 0x2E then
      let digits := rest.takeWhile isDecimalDigit
      if digits = [] then none else some (digits, rest.dropWhile isDecimalDigit)
    else some ([], u :: rest)

/-- The exponent of a literal, which is all that may follow. -/
def exponentOf : JsString → Option ℤ
  | [] => some 0
  | u :: rest =>
    if u = 0x65 ∨ u = 0x45 then
      let (negative, digits) := splitSign true rest
      if digits ≠ [] ∧ digits.all isDecimalDigit then
        some (if negative then -(digitsValue digits) else digitsValue digits)
      else none
    else none

/-- A JSON number: its sign, and the decimal value without it. -/
def decimalLiteral (token : JsString) : Option (Bool × ℚ) :=
  let (negative, rest) := splitSign false token
  let whole := rest.takeWhile isDecimalDigit
  if whole = [] ∨ (whole.head? = some 0x30 ∧ whole.length ≠ 1) then none
  else
    (fractionDigits (rest.dropWhile isDecimalDigit)).bind fun (fraction, rest) =>
      (exponentOf rest).map fun exponent =>
        (negative, digitsValue (whole ++ fraction) * (10 : ℚ) ^ (exponent - (fraction.length : ℤ)))

/-- The integer below the binary logarithm of a positive number. -/
def floorLog (q : ℚ) : ℤ :=
  let k : ℤ := (Nat.log2 q.num.natAbs : ℤ) - Nat.log2 q.den
  if (2 : ℚ) ^ k ≤ q then k else k - 1

/-- To the nearest integer, and between two of them to the even one. -/
def roundHalfEven (q : ℚ) : ℤ :=
  let below := ⌊q⌋
  let excess := q - below
  if excess < 1 / 2 then below
  else if 1 / 2 < excess then below + 1
  else if below % 2 = 0 then below else below + 1

/-- The double nearest to a number that is not negative, under a sign. -/
def roundToDouble (negative : Bool) (q : ℚ) : JsNumber :=
  let ulp : ℚ := if q = 0 then 1 else (2 : ℚ) ^ max (-1074) (floorLog q - 52)
  let rounded := roundHalfEven (q / ulp) * ulp
  if rounded = 0 then (if negative then .negZero else .finite 0)
  else if (2 : ℚ) ^ (1024 : ℤ) ≤ rounded then (if negative then .negInfinity else .posInfinity)
  else .finite (if negative then -rounded else rounded)

/-- The double a number token is read as. -/
def numberLiteral (token : JsString) : Option JsNumber :=
  (decimalLiteral token).map fun literal => roundToDouble literal.1 literal.2

/-! ## Strings -/

/-- The value of a hexadecimal digit, in either case. -/
def hexValue (u : CodeUnit) : Option ℕ :=
  if 0x30 ≤ u ∧ u ≤ 0x39 then some (u.val - 0x30)
  else if 0x61 ≤ u ∧ u ≤ 0x66 then some (u.val - 0x57)
  else if 0x41 ≤ u ∧ u ≤ 0x46 then some (u.val - 0x37)
  else none

/-- The code unit four hexadecimal digits name. -/
def hexUnit (a b c d : CodeUnit) : Option CodeUnit := do
  let a ← hexValue a
  let b ← hexValue b
  let c ← hexValue c
  let d ← hexValue d
  some (Fin.ofNat _ (((a * 16 + b) * 16 + c) * 16 + d))

/-- The letters of the two-unit escapes. -/
def escapeLetters : List CodeUnit := [quotationMark, reverseSolidus, 0x2F, 0x62, 0x66, 0x6E, 0x72, 0x74]

/-- The rest of a string literal after its opening mark, and what follows it. -/
def readString : JsString → Option (JsString × JsString)
  | [] => none
  | u :: rest =>
    if u = quotationMark then some ([], rest)
    else if u = reverseSolidus then
      match rest with
      | [] => none
      | e :: rest =>
        if e = smallU then
          match rest with
          | a :: b :: c :: d :: rest =>
            (hexUnit a b c d).bind fun v => (readString rest).map fun p => (v :: p.1, p.2)
          | _ => none
        else if e ∈ escapeLetters then
          (readString rest).map fun p => (shortUnescape e :: p.1, p.2)
        else none
    else if u < 0x20 then none
    else (readString rest).map fun p => (u :: p.1, p.2)

/-! ## Values -/

/-- White space between tokens. -/
def isJsonSpace (u : CodeUnit) : Bool := u = 0x20 || u = 0x09 || u = 0x0A || u = 0x0D

/-- What follows this unit, where it comes next. -/
def afterUnit (unit : CodeUnit) (text : JsString) : Option JsString :=
  match text.dropWhile isJsonSpace with
  | [] => none
  | u :: rest => if u = unit then some rest else none

/-- What follows this word, where it comes next. -/
def afterWord (word text : JsString) : Option JsString :=
  if word.isPrefixOf text then some (text.drop word.length) else none

/-- A number, and the text after it. -/
def readNumber (text : JsString) : Option (Json × JsString) :=
  (numberLiteral (text.takeWhile isLiteralUnit)).map fun x =>
    (.num x, text.dropWhile isLiteralUnit)

/-- A value that holds no other. -/
def readAtom (text : JsString) : Option (Json × JsString) :=
  ((afterWord "null" text).map fun rest => (Json.null, rest)).or
    (((afterWord "true" text).map fun rest => (Json.bool true, rest)).or
      (((afterWord "false" text).map fun rest => (Json.bool false, rest)).or (readNumber text)))

/-- `CreateDataProperty`: a key that is new takes its place in the order of properties. -/
def createProperty (own : List (JsString × Json)) (key : JsString) (value : Json) :
    List (JsString × Json) :=
  if key ∈ own.map Prod.fst then own.map fun p => if p.1 = key then (key, value) else p
  else
    own.takeWhile (fun p => precedes p.1 key) ++
      (key, value) :: own.dropWhile fun p => precedes p.1 key

/-- The object whose properties are created in this order. -/
def createObject (entries : List (JsString × Json)) : List (JsString × Json) :=
  entries.foldl (fun own e => createProperty own e.1 e.2) []

mutual

/-- A value, and the text after it. The fuel bounds the nesting. -/
def readValue : ℕ → JsString → Option (Json × JsString)
  | 0, _ => none
  | fuel + 1, text =>
    match text.dropWhile isJsonSpace with
    | [] => none
    | u :: rest =>
      if u = quotationMark then (readString rest).map fun p => (.str p.1, p.2)
      else if u = 0x5B then
        match afterUnit 0x5D rest with
        | some rest => some (.arr [], rest)
        | none => (readItems fuel rest).map fun p => (.arr p.1, p.2)
      else if u = 0x7B then
        match afterUnit 0x7D rest with
        | some rest => some (.obj [], rest)
        | none => (readEntries fuel rest).map fun p => (.obj (createObject p.1), p.2)
      else readAtom (u :: rest)

/-- The items of an array up to its end. -/
def readItems : ℕ → JsString → Option (List Json × JsString)
  | 0, _ => none
  | fuel + 1, text =>
    (readValue fuel text).bind fun (v, rest) =>
      match afterUnit 0x2C rest with
      | some rest => (readItems fuel rest).map fun p => (v :: p.1, p.2)
      | none => (afterUnit 0x5D rest).map fun rest => ([v], rest)

/-- The entries of an object up to its end, as they are written. -/
def readEntries : ℕ → JsString → Option (List (JsString × Json) × JsString)
  | 0, _ => none
  | fuel + 1, text =>
    ((afterUnit quotationMark text).bind readString).bind fun (key, rest) =>
      ((afterUnit 0x3A rest).bind (readValue fuel)).bind fun (v, rest) =>
        match afterUnit 0x2C rest with
        | some rest => (readEntries fuel rest).map fun p => ((key, v) :: p.1, p.2)
        | none => (afterUnit 0x7D rest).map fun rest => ([(key, v)], rest)

end

/-- `JSON.parse`, which throws on what is no JSON text. -/
def jsonParse (text : JsString) : Option Json :=
  (readValue (text.length + 1) text).bind fun (v, rest) =>
    if rest.all isJsonSpace then some v else none

/-! ## A literal that was written -/

theorem hexValue_hexDigit {n : ℕ} (h : n < 16) : hexValue (hexDigit n) = some n := by
  revert n
  decide

/-- The four digits of a code unit name it. -/
theorem hexUnit_digits (u : CodeUnit) :
    hexUnit (hexDigit (u.val / 4096 % 16)) (hexDigit (u.val / 256 % 16))
      (hexDigit (u.val / 16 % 16)) (hexDigit (u.val % 16)) = some u := by
  have hdigit : ∀ m : ℕ, hexValue (hexDigit (m % 16)) = some (m % 16) := fun m =>
    hexValue_hexDigit (Nat.mod_lt m (by decide))
  simp only [hexUnit, hdigit, Option.bind_eq_bind, Option.bind_some, Option.some.injEq]
  apply Fin.ext
  simp only [Fin.ofNat]
  have hlt := u.isLt
  omega

theorem readString_unicode (u : CodeUnit) (text : JsString) :
    readString (unicodeEscape u ++ text) = (readString text).map fun p => (u :: p.1, p.2) := by
  have hmark : reverseSolidus ≠ quotationMark := by decide
  simp only [unicodeEscape, List.cons_append, List.nil_append]
  rw [readString.eq_def]
  simp only [if_neg hmark, if_pos, hexUnit_digits, Option.bind_some]

theorem readString_short {u e : CodeUnit} (h : shortEscape u = some e) (text : JsString) :
    readString (reverseSolidus :: e :: text) = (readString text).map fun p => (u :: p.1, p.2) := by
  have hmark : reverseSolidus ≠ quotationMark := by decide
  have hletter : e ∈ escapeLetters := by
    unfold shortEscape at h
    repeat' split at h
    all_goals cases h
    all_goals decide
  rw [readString.eq_def]
  simp only [if_neg hmark, if_pos, if_neg (shortEscape_ne_smallU h), if_pos hletter,
    shortUnescape_of_shortEscape h]

theorem readString_verbatim {u : CodeUnit} (hmark : u ≠ quotationMark) (hescape : u ≠ reverseSolidus)
    (hcontrol : ¬ u < 0x20) (text : JsString) :
    readString (u :: text) = (readString text).map fun p => (u :: p.1, p.2) := by
  rw [readString.eq_def]
  simp only [if_neg hmark, if_neg hescape, if_neg hcontrol]

theorem readString_escapeUnit (u : CodeUnit) (text : JsString) :
    readString (escapeUnit u ++ text) = (readString text).map fun p => (u :: p.1, p.2) := by
  unfold escapeUnit
  cases hshort : shortEscape u with
  | some e => exact readString_short hshort text
  | none =>
      by_cases hcontrol : u < 0x20
      · simp only [if_pos hcontrol]
        exact readString_unicode u text
      · simp only [if_neg hcontrol]
        refine readString_verbatim ?_ ?_ hcontrol text
        · rintro rfl
          simp [shortEscape, quotationMark] at hshort
        · rintro rfl
          simp [shortEscape, quotationMark, reverseSolidus] at hshort

/-- A surrogate stands for itself. -/
theorem readString_surrogate {u : CodeUnit}
    (h : isHighSurrogate u = true ∨ isLowSurrogate u = true) (text : JsString) :
    readString (u :: text) = (readString text).map fun p => (u :: p.1, p.2) := by
  refine readString_verbatim ?_ ?_ ?_ text
  · rintro rfl
    revert h
    decide
  · rintro rfl
    revert h
    decide
  · intro hcontrol
    simp only [isHighSurrogate, isLowSurrogate, Bool.and_eq_true, decide_eq_true_eq] at h
    rcases h with ⟨hlow, -⟩ | ⟨hlow, -⟩ <;>
      exact absurd (hlow.trans_lt hcontrol) (by decide)

/-- **A literal is read back** as the string it was written for, and so is where it ends. -/
theorem readString_quoteUnits (s r : JsString) :
    readString (quoteUnits s ++ quotationMark :: r) = some (s, r) := by
  fun_induction quoteUnits s with
  | case1 =>
      show readString (quotationMark :: r) = _
      rw [readString.eq_def]
      simp only [if_pos]
  | case2 u h =>
      rw [readString_unicode, readString.eq_def]
      simp only [if_pos, Option.map_some]
  | case3 u h =>
      rw [readString_escapeUnit, readString.eq_def]
      simp only [if_pos, Option.map_some]
  | case4 u v rest h ih =>
      rw [Bool.and_eq_true] at h
      rw [List.cons_append, List.cons_append, readString_surrogate (.inl h.1),
        readString_surrogate (.inr h.2), ih]
      rfl
  | case5 u v rest h1 h2 ih =>
      rw [List.append_assoc, readString_unicode, ih]
      rfl
  | case6 u v rest h1 h2 ih =>
      rw [List.append_assoc, readString_escapeUnit, ih]
      rfl

/-! ## A value that was written -/

namespace Json

mutual

/-- The value as its text carries it. -/
def reread : Json → Json
  | .num .nan | .num .posInfinity | .num .negInfinity => .null
  | .num .negZero => .num (.finite 0)
  | .arr items => .arr (rereadItems items)
  | .obj entries => .obj (createObject (rereadEntries entries))
  | v => v

/-- The items of an array, each read again. -/
def rereadItems : List Json → List Json
  | [] => []
  | v :: rest => reread v :: rereadItems rest

/-- The entries of an object, their values read again. -/
def rereadEntries : List (JsString × Json) → List (JsString × Json)
  | [] => []
  | (k, v) :: rest => (k, reread v) :: rereadEntries rest

end

/-- The host writes the number as a number that is read back: what the language promises of every
finite number. -/
structure ReadsBack (fmt : ℚ → JsString) (x : JsNumber) : Prop where
  units : ∀ q, x = .finite q → ∀ u ∈ fmt q, isNumberUnit u = true
  value : ∀ q, x = .finite q → numberLiteral (fmt q) = some (.finite q)

end Json

/-- What may stand where a number ends. -/
theorem delimited_takeWhile {s r : JsString} (hs : ∀ u ∈ s, Json.isNumberUnit u = true)
    (hr : Json.Delimited r) :
    (s ++ r).takeWhile isLiteralUnit = s ∧ (s ++ r).dropWhile isLiteralUnit = r := by
  have hunits : ∀ u ∈ s, isLiteralUnit u = true := by
    intro u hu
    unfold isLiteralUnit
    rw [hs u hu, Bool.true_or]
  have hstop : r.takeWhile isLiteralUnit = [] ∧ r.dropWhile isLiteralUnit = r := by
    rcases hr with rfl | ⟨rest, rfl | rfl | rfl⟩
    · exact ⟨rfl, rfl⟩
    all_goals exact ⟨rfl, rfl⟩
  rw [List.takeWhile_append_of_pos hunits, List.dropWhile_append_of_pos hunits, hstop.1, hstop.2,
    List.append_nil]
  exact ⟨rfl, rfl⟩

theorem afterUnit_cons (unit : CodeUnit) (hspace : isJsonSpace unit = false) (text : JsString) :
    afterUnit unit (unit :: text) = some text := by
  unfold afterUnit
  rw [List.dropWhile_cons_of_neg (by rw [hspace]; exact nofun)]
  exact if_pos rfl

theorem afterUnit_cons_ne (unit u : CodeUnit) (hspace : isJsonSpace u = false) (hne : u ≠ unit)
    (text : JsString) : afterUnit unit (u :: text) = none := by
  unfold afterUnit
  rw [List.dropWhile_cons_of_neg (by rw [hspace]; exact nofun)]
  exact if_neg hne

/-- A unit that begins a value: no space, and no separator or closing bracket. -/
def beginsValue (u : CodeUnit) : Bool :=
  !isJsonSpace u && u ≠ 0x5D && u ≠ 0x7D && u ≠ 0x2C

theorem beginsValue_of_isNumberUnit {u : CodeUnit} (h : Json.isNumberUnit u = true) :
    beginsValue u = true := by
  simp only [beginsValue, isJsonSpace, Bool.and_eq_true, Bool.not_eq_true', Bool.or_eq_false_iff,
    decide_eq_true_eq, decide_eq_false_iff_not]
  refine ⟨⟨⟨⟨⟨⟨?_, ?_⟩, ?_⟩, ?_⟩, ?_⟩, ?_⟩, ?_⟩
  all_goals
    rintro rfl
    revert h
    decide

/-- A literal that is read has a first unit. -/
theorem numberLiteral_ne_nil {token : JsString} {x : JsNumber} (h : numberLiteral token = some x) :
    token ≠ [] := by
  rintro rfl
  cases h

section Written

variable {fmt : ℚ → JsString}

/-- The text of a finite number that reads back begins with one of its units. -/
theorem ReadsBack_begins {q : ℚ} (h : Json.ReadsBack fmt (.finite q)) :
    ∃ u rest, fmt q = u :: rest ∧ Json.isNumberUnit u = true := by
  obtain ⟨u, rest, htext⟩ := List.exists_cons_of_ne_nil (numberLiteral_ne_nil (h.value q rfl))
  exact ⟨u, rest, htext, h.units q rfl u (htext ▸ List.mem_cons_self)⟩

theorem stringify_begins {v : Json} (hv : v.NumbersIn (Json.ReadsBack fmt)) :
    ∃ u rest, Json.stringify fmt v = u :: rest ∧ beginsValue u = true := by
  cases hv with
  | null => exact ⟨_, _, rfl, by decide⟩
  | bool b => cases b <;> exact ⟨_, _, rfl, by decide⟩
  | @num x hx =>
      cases x with
      | nan => exact ⟨_, _, rfl, by decide⟩
      | posInfinity => exact ⟨_, _, rfl, by decide⟩
      | negInfinity => exact ⟨_, _, rfl, by decide⟩
      | negZero => exact ⟨_, _, rfl, by decide⟩
      | finite q =>
          obtain ⟨u, rest, htext, hunit⟩ := ReadsBack_begins hx
          exact ⟨u, rest, htext, beginsValue_of_isNumberUnit hunit⟩
  | str s => exact ⟨_, _, rfl, by decide⟩
  | arr h => exact ⟨_, _, rfl, by decide⟩
  | obj h => exact ⟨_, _, rfl, by decide⟩

theorem isJsonSpace_of_begins {u : CodeUnit} (h : beginsValue u = true) : isJsonSpace u = false := by
  simp only [beginsValue, Bool.and_eq_true, Bool.not_eq_true'] at h
  exact h.1.1.1

/-- A number is read up to where it ends. -/
theorem readNumber_text {x : JsNumber} (hx : Json.ReadsBack fmt x) {q : ℚ} (hq : x = .finite q)
    {r : JsString} (hr : Json.Delimited r) :
    readNumber (fmt q ++ r) = some (.num x, r) := by
  obtain ⟨htake, hdrop⟩ := delimited_takeWhile (hx.units q hq) hr
  unfold readNumber
  rw [htake, hdrop, hx.value q hq, hq]
  rfl

/-- A text that does not begin a word, a literal or a container is read as a number. -/
theorem readValue_number {u : CodeUnit} (fuel : ℕ) (rest : JsString)
    (hu : Json.isNumberUnit u = true) :
    readValue (fuel + 1) (u :: rest) = readNumber (u :: rest) := by
  have hspace := isJsonSpace_of_begins (beginsValue_of_isNumberUnit hu)
  have hword : ∀ (w : CodeUnit) (word : JsString), Json.isNumberUnit w = false →
      afterWord (w :: word) (u :: rest) = none := by
    intro w word hw
    have hne : w ≠ u := by
      rintro rfl
      rw [hu] at hw
      cases hw
    simp [afterWord, List.isPrefixOf, hne]
  have hnull : afterWord "null" (u :: rest) = none := hword 0x6E _ (by decide)
  have htrue : afterWord "true" (u :: rest) = none := hword 0x74 _ (by decide)
  have hfalse : afterWord "false" (u :: rest) = none := hword 0x66 _ (by decide)
  have hne : u ≠ quotationMark ∧ u ≠ 0x5B ∧ u ≠ 0x7B := by
    refine ⟨?_, ?_, ?_⟩
    all_goals
      rintro rfl
      revert hu
      decide
  rw [readValue, List.dropWhile_cons_of_neg (by rw [hspace]; exact nofun)]
  simp only [if_neg hne.1, if_neg hne.2.1, if_neg hne.2.2, readAtom, hnull, htrue, hfalse]
  rfl

/-- What is to be shown of a value: with as much fuel as its text is long it is read back. -/
def ReadBack (fmt : ℚ → JsString) (v : Json) : Prop :=
  ∀ n r, (Json.stringify fmt v).length ≤ n → Json.Delimited r →
    readValue n (Json.stringify fmt v ++ r) = some (v.reread, r)

/-- The items of an array are read back where each of them is. -/
theorem readItems_text {items : List Json} (hne : items ≠ []) (h : ∀ v ∈ items, ReadBack fmt v) :
    ∀ n r, (commaJoin (items.map (Json.stringify fmt))).length < n →
      readItems n (commaJoin (items.map (Json.stringify fmt)) ++ 0x5D :: r) =
        some (items.map Json.reread, r) := by
  induction items with
  | nil => exact absurd rfl hne
  | cons v rest ih =>
      intro n r hlength
      obtain ⟨m, rfl⟩ := Nat.exists_eq_add_one.mpr (Nat.zero_lt_of_lt hlength)
      have hv := h v List.mem_cons_self
      cases rest with
      | nil =>
          simp only [List.map_cons, List.map_nil, commaJoin, List.flatMap_nil, List.append_nil]
            at hlength ⊢
          rw [readItems, hv m (0x5D :: r) (by omega) (.inr ⟨r, .inr (.inl rfl)⟩)]
          simp only [Option.bind_some, afterUnit_cons_ne 0x2C 0x5D (by decide) (by decide),
            afterUnit_cons 0x5D (by decide), Option.map_some]
      | cons w others =>
          have hsplit : commaJoin ((v :: w :: others).map (Json.stringify fmt)) =
              Json.stringify fmt v ++ 0x2C :: commaJoin ((w :: others).map (Json.stringify fmt)) := rfl
          rw [hsplit, List.length_append, List.length_cons] at hlength
          rw [hsplit, List.append_assoc, List.cons_append, readItems,
            hv m _ (by omega) (.inr ⟨_, .inl rfl⟩)]
          simp only [Option.bind_some, afterUnit_cons 0x2C (by decide)]
          rw [ih (List.cons_ne_nil w others) (fun x hx => h x (List.mem_cons_of_mem v hx)) m r
            (by omega)]
          rfl

/-- An entry up to what follows it. -/
theorem readEntry_text {e : JsString × Json} (h : ReadBack fmt e.2) {m : ℕ} {r : JsString}
    (hm : (Json.stringify fmt e.2).length ≤ m) (hr : Json.Delimited r) :
    readEntries (m + 1) (Json.entryText (e.1, Json.stringify fmt e.2) ++ r) =
      (afterUnit 0x2C r).elim ((afterUnit 0x7D r).map fun rest => ([(e.1, e.2.reread)], rest))
        fun rest => (readEntries m rest).map fun p => ((e.1, e.2.reread) :: p.1, p.2) := by
  have htext : Json.entryText (e.1, Json.stringify fmt e.2) ++ r =
      quotationMark :: (quoteUnits e.1 ++ quotationMark :: 0x3A :: (Json.stringify fmt e.2 ++ r)) := by
    simp [Json.entryText, quote]
  rw [htext, readEntries, afterUnit_cons quotationMark (by decide)]
  simp only [Option.bind_some, readString_quoteUnits, afterUnit_cons 0x3A (by decide), h m r hm hr]
  cases afterUnit 0x2C r <;> rfl

/-- The entries of an object are read back where each value of them is. -/
theorem readEntries_text {entries : List (JsString × Json)} (hne : entries ≠ [])
    (h : ∀ e ∈ entries, ReadBack fmt e.2) :
    ∀ n r, (commaJoin (entries.map fun e => Json.entryText (e.1, Json.stringify fmt e.2))).length < n →
      readEntries n (commaJoin (entries.map fun e => Json.entryText (e.1, Json.stringify fmt e.2)) ++
          0x7D :: r) =
        some (entries.map fun e => (e.1, e.2.reread), r) := by
  induction entries with
  | nil => exact absurd rfl hne
  | cons e rest ih =>
      intro n r hlength
      obtain ⟨m, rfl⟩ := Nat.exists_eq_add_one.mpr (Nat.zero_lt_of_lt hlength)
      have he := h e List.mem_cons_self
      have hvalue : (Json.stringify fmt e.2).length ≤
          (Json.entryText (e.1, Json.stringify fmt e.2)).length := by
        simp only [Json.entryText, List.length_append, List.length_cons]
        omega
      cases rest with
      | nil =>
          simp only [List.map_cons, List.map_nil, commaJoin, List.flatMap_nil, List.append_nil]
            at hlength ⊢
          rw [readEntry_text he (by omega) (.inr ⟨r, .inr (.inr rfl)⟩),
            afterUnit_cons_ne 0x2C 0x7D (by decide) (by decide), afterUnit_cons 0x7D (by decide)]
          rfl
      | cons f others =>
          have hsplit : commaJoin ((e :: f :: others).map fun e =>
                Json.entryText (e.1, Json.stringify fmt e.2)) =
              Json.entryText (e.1, Json.stringify fmt e.2) ++ 0x2C :: commaJoin
                ((f :: others).map fun e => Json.entryText (e.1, Json.stringify fmt e.2)) := rfl
          rw [hsplit, List.length_append, List.length_cons] at hlength
          rw [hsplit, List.append_assoc, List.cons_append,
            readEntry_text he (by omega) (.inr ⟨_, .inl rfl⟩), afterUnit_cons 0x2C (by decide)]
          simp only [Option.elim_some]
          rw [ih (List.cons_ne_nil f others) (fun x hx => h x (List.mem_cons_of_mem e hx)) m r
            (by omega)]
          rfl

end Written

namespace Json

@[simp] theorem rereadItems_eq_map (items : List Json) :
    rereadItems items = items.map reread := by
  induction items with
  | nil => rfl
  | cons v rest ih => simp only [rereadItems, ih, List.map_cons]

@[simp] theorem rereadEntries_eq_map (entries : List (JsString × Json)) :
    rereadEntries entries = entries.map fun e => (e.1, e.2.reread) := by
  induction entries with
  | nil => rfl
  | cons e rest ih => simp only [rereadEntries, ih, List.map_cons]

end Json

theorem numberLiteral_zero : numberLiteral [0x30] = some (.finite 0) := by decide +kernel

/-- An array is read back where its items are. -/
theorem readBack_arr {fmt : ℚ → JsString} {items : List Json}
    (hnumbers : ∀ v ∈ items, v.NumbersIn (Json.ReadsBack fmt))
    (h : ∀ v ∈ items, ReadBack fmt v) : ReadBack fmt (.arr items) := by
  intro n r hn _
  cases items with
  | nil =>
      obtain ⟨m, rfl⟩ := Nat.exists_eq_add_one.mpr (Nat.lt_of_lt_of_le (Nat.zero_lt_succ _) hn)
      rfl
  | cons v rest =>
      simp only [Json.stringify, Json.stringifyItems_eq_map, List.length_cons, List.length_append]
        at hn
      obtain ⟨m, rfl⟩ := Nat.exists_eq_add_one.mpr (Nat.lt_of_lt_of_le (Nat.zero_lt_succ _) hn)
      have htext : Json.stringify fmt (.arr (v :: rest)) ++ r =
          0x5B :: (commaJoin ((v :: rest).map (Json.stringify fmt)) ++ 0x5D :: r) := by
        simp [Json.stringify]
      -- the first item begins no bracket that closes
      obtain ⟨u, text, hu, hbegins⟩ := stringify_begins (hnumbers v List.mem_cons_self)
      have hopen : afterUnit 0x5D (commaJoin ((v :: rest).map (Json.stringify fmt)) ++ 0x5D :: r) =
          none := by
        rw [List.map_cons, commaJoin, hu, List.cons_append, List.cons_append]
        refine afterUnit_cons_ne 0x5D u (isJsonSpace_of_begins hbegins) ?_ _
        rintro rfl
        revert hbegins
        decide
      rw [htext, readValue, List.dropWhile_cons_of_neg (by decide)]
      simp only [if_neg (show (0x5B : CodeUnit) ≠ quotationMark by decide), if_pos, hopen]
      rw [readItems_text (List.cons_ne_nil v rest) h m r (by omega)]
      simp [Json.reread]

/-- An object is read back where its entries are, with its properties in their order. -/
theorem readBack_obj {fmt : ℚ → JsString} {entries : List (JsString × Json)}
    (h : ∀ e ∈ entries, ReadBack fmt e.2) : ReadBack fmt (.obj entries) := by
  intro n r hn _
  cases entries with
  | nil =>
      obtain ⟨m, rfl⟩ := Nat.exists_eq_add_one.mpr (Nat.lt_of_lt_of_le (Nat.zero_lt_succ _) hn)
      rfl
  | cons e rest =>
      have htexts : (Json.stringifyEntries fmt (e :: rest)).map Json.entryText =
          (e :: rest).map fun e => Json.entryText (e.1, Json.stringify fmt e.2) := by
        rw [Json.stringifyEntries_eq_map, List.map_map]
        rfl
      simp only [Json.stringify, htexts, List.length_cons, List.length_append] at hn
      obtain ⟨m, rfl⟩ := Nat.exists_eq_add_one.mpr (Nat.lt_of_lt_of_le (Nat.zero_lt_succ _) hn)
      have htext : Json.stringify fmt (.obj (e :: rest)) ++ r =
          0x7B :: (commaJoin ((e :: rest).map fun e => Json.entryText (e.1, Json.stringify fmt e.2)) ++
            0x7D :: r) := by
        rw [Json.stringify, htexts]
        simp
      have hopen : afterUnit 0x7D (commaJoin ((e :: rest).map fun e =>
          Json.entryText (e.1, Json.stringify fmt e.2)) ++ 0x7D :: r) = none := by
        rw [List.map_cons, commaJoin, Json.entryText, quote, List.cons_append, List.cons_append,
          List.cons_append]
        exact afterUnit_cons_ne 0x7D quotationMark (by decide) (by decide) _
      rw [htext, readValue, List.dropWhile_cons_of_neg (by decide)]
      simp only [if_neg (show (0x7B : CodeUnit) ≠ quotationMark by decide),
        if_neg (show (0x7B : CodeUnit) ≠ 0x5B by decide), if_pos, hopen]
      rw [readEntries_text (List.cons_ne_nil e rest) h m r (by omega)]
      simp [Json.reread]

/-- **A value is read back from its text**, with as much fuel as the text is long, and so is where it
ends. -/
theorem readBack {fmt : ℚ → JsString} {v : Json} (hv : v.NumbersIn (Json.ReadsBack fmt)) :
    ReadBack fmt v := by
  induction v with
  | arr items ih =>
      cases hv with
      | arr hv => exact readBack_arr hv fun v hin => ih v hin (hv v hin)
  | obj entries ih =>
      cases hv with
      | obj hv => exact readBack_obj fun e hin => ih e hin (hv e hin)
  | null =>
      intro n r hn _
      obtain ⟨m, rfl⟩ := Nat.exists_eq_add_one.mpr (Nat.lt_of_lt_of_le (Nat.zero_lt_succ _) hn)
      rfl
  | bool b =>
      intro n r hn _
      cases b
      all_goals
        obtain ⟨m, rfl⟩ := Nat.exists_eq_add_one.mpr (Nat.lt_of_lt_of_le (Nat.zero_lt_succ _) hn)
        rfl
  | str s =>
      intro n r hn _
      obtain ⟨m, rfl⟩ := Nat.exists_eq_add_one.mpr (Nat.lt_of_lt_of_le (Nat.zero_lt_succ _) hn)
      have htext : Json.stringify fmt (.str s) ++ r =
          quotationMark :: (quoteUnits s ++ quotationMark :: r) := by
        simp [Json.stringify, quote]
      rw [htext, readValue, List.dropWhile_cons_of_neg (by decide)]
      simp only [if_pos, readString_quoteUnits, Option.map_some]
      rfl
  | num x =>
      intro n r hn hr
      cases hv with
      | num hx =>
          cases x with
          | finite q =>
              -- the first unit sends the reader to the number rule
              obtain ⟨u, rest, htext, hunit⟩ := ReadsBack_begins hx
              have hread := readNumber_text hx rfl hr
              simp only [Json.stringify, Json.numberText] at hn ⊢
              rw [htext] at hn hread ⊢
              obtain ⟨m, rfl⟩ := Nat.exists_eq_add_one.mpr
                (Nat.lt_of_lt_of_le (Nat.zero_lt_succ _) hn)
              rw [List.cons_append] at hread ⊢
              rw [readValue_number m _ hunit]
              exact hread
          | negZero =>
              obtain ⟨m, rfl⟩ := Nat.exists_eq_add_one.mpr
                (Nat.lt_of_lt_of_le (Nat.zero_lt_succ _) hn)
              have hzero : ∀ u ∈ ([0x30] : JsString), Json.isNumberUnit u = true := by
                intro u hu
                rw [List.mem_singleton.mp hu]
                decide
              obtain ⟨htake, hdrop⟩ := delimited_takeWhile hzero hr
              show readValue (m + 1) ([0x30] ++ r) = _
              rw [List.singleton_append, readValue_number m r (by decide), readNumber,
                ← List.singleton_append, htake, hdrop, numberLiteral_zero]
              rfl
          | nan =>
              obtain ⟨m, rfl⟩ := Nat.exists_eq_add_one.mpr
                (Nat.lt_of_lt_of_le (Nat.zero_lt_succ _) hn)
              rfl
          | posInfinity =>
              obtain ⟨m, rfl⟩ := Nat.exists_eq_add_one.mpr
                (Nat.lt_of_lt_of_le (Nat.zero_lt_succ _) hn)
              rfl
          | negInfinity =>
              obtain ⟨m, rfl⟩ := Nat.exists_eq_add_one.mpr
                (Nat.lt_of_lt_of_le (Nat.zero_lt_succ _) hn)
              rfl

/-- **`JSON.parse` of what `JSON.stringify` wrote** is the value as its text carries it. -/
theorem jsonParse_stringify {fmt : ℚ → JsString} {v : Json}
    (hv : v.NumbersIn (Json.ReadsBack fmt)) :
    jsonParse (Json.stringify fmt v) = some v.reread := by
  have hread := readBack hv ((Json.stringify fmt v).length + 1) [] (Nat.le_succ _) (.inl rfl)
  rw [List.append_nil] at hread
  unfold jsonParse
  rw [hread]
  rfl

/-! ## Objects in property order -/

/-- A property after all others is created last. -/
theorem createProperty_last {own : List (JsString × Json)} {key : JsString} {value : Json}
    (h : ∀ p ∈ own, p.1 ≠ key ∧ precedes p.1 key = true) :
    createProperty own key value = own ++ [(key, value)] := by
  have hfresh : key ∉ own.map Prod.fst := by
    intro hmem
    obtain ⟨p, hp, hkey⟩ := List.mem_map.mp hmem
    exact (h p hp).1 hkey
  have htake : own.takeWhile (fun p => precedes p.1 key) = own :=
    List.takeWhile_eq_self_iff.mpr fun p hp => (h p hp).2
  have hdrop : own.dropWhile (fun p => precedes p.1 key) = [] :=
    List.dropWhile_eq_nil_iff.mpr fun p hp => (h p hp).2
  unfold createProperty
  rw [if_neg hfresh, htake, hdrop]

/-- Properties in their order are created as they stand. -/
theorem createObject_of_ordered {entries : List (JsString × Json)} (h : PropertyOrdered entries) :
    createObject entries = entries := by
  have hrest : ∀ rest own : List (JsString × Json), PropertyOrdered (own ++ rest) →
      rest.foldl (fun own e => createProperty own e.1 e.2) own = own ++ rest := by
    intro rest
    induction rest with
    | nil =>
        intro own _
        rw [List.append_nil]
        rfl
    | cons e rest ih =>
        intro own hordered
        have hbefore : ∀ p ∈ own, p.1 ≠ e.1 ∧ precedes p.1 e.1 = true := fun p hp =>
          hordered.before p.1 (List.mem_map_of_mem hp)
        rw [List.foldl_cons, createProperty_last hbefore, ih (own ++ [e])]
        · rw [List.append_assoc]
          rfl
        · rw [List.append_assoc]
          exact hordered
  exact hrest entries [] h

/-- Distinct keys none of which is an index stay in the order they come in. -/
theorem PropertyOrdered.of_names {α : Type} {entries : List (JsString × α)}
    (hnodup : (entries.map Prod.fst).Nodup) (hnames : ∀ e ∈ entries, arrayIndex e.1 = none) :
    PropertyOrdered entries := by
  have hdistinct : entries.Pairwise fun a b => a.1 ≠ b.1 := List.pairwise_map.mp hnodup
  refine List.Pairwise.imp_of_mem ?_ hdistinct
  intro a b ha hb hne
  refine ⟨hne, ?_⟩
  rw [precedes, hnames a ha, hnames b hb]

/-- What `JSON.parse` makes of an object of strings under distinct names. -/
theorem reread_texts {entries : List (JsString × JsString)}
    (hnodup : (entries.map Prod.fst).Nodup) (hnames : ∀ e ∈ entries, arrayIndex e.1 = none) :
    (Json.obj (entries.map fun e => (e.1, .str e.2))).reread =
      .obj (entries.map fun e => (e.1, .str e.2)) := by
  have hkeys : (entries.map fun e => (e.1, Json.str e.2)).map Prod.fst = entries.map Prod.fst := by
    rw [List.map_map]
    rfl
  have hordered : PropertyOrdered (entries.map fun e => (e.1, Json.str e.2)) := by
    refine .of_names (hkeys ▸ hnodup) fun e he => ?_
    obtain ⟨text, htext, rfl⟩ := List.mem_map.mp he
    exact hnames text htext
  have hsame : (entries.map fun e => (e.1, Json.str e.2)).map (fun e => (e.1, e.2.reread)) =
      entries.map fun e => (e.1, Json.str e.2) := by
    rw [List.map_map]
    rfl
  rw [Json.reread, Json.rereadEntries_eq_map, hsame, createObject_of_ordered hordered]

/-- Under distinct keys an entry is what its key is looked up to. -/
theorem lookup_eq_some_iff_mem {α : Type} {entries : List (JsString × α)}
    (hnodup : (entries.map Prod.fst).Nodup) {key : JsString} {a : α} :
    entries.lookup key = some a ↔ (key, a) ∈ entries := by
  rw [List.lookup_eq_some_iff]
  constructor
  · rintro ⟨before, after, rfl, -⟩
    exact List.mem_append_right _ List.mem_cons_self
  · intro hmem
    obtain ⟨before, after, rfl⟩ := List.append_of_mem hmem
    refine ⟨before, after, rfl, fun e he => ?_⟩
    rw [bne_iff_ne]
    rintro rfl
    rw [List.map_append, List.map_cons] at hnodup
    exact (List.nodup_append.mp hnodup).2.2 _ (List.mem_map_of_mem he) _ List.mem_cons_self rfl

/-- The order of distinct keys is no part of what they are looked up to. -/
theorem lookup_eq_of_perm {α : Type} {entries entries' : List (JsString × α)}
    (h : entries.Perm entries') (hnodup : (entries.map Prod.fst).Nodup) (key : JsString) :
    entries.lookup key = entries'.lookup key := by
  have hnodup' : (entries'.map Prod.fst).Nodup := (h.map Prod.fst).nodup_iff.mp hnodup
  refine Option.ext fun a => ?_
  rw [lookup_eq_some_iff_mem hnodup, lookup_eq_some_iff_mem hnodup', h.mem_iff]

/-- An object of texts is looked up text by text. -/
theorem lookup_texts (entries : List (JsString × JsString)) (key : JsString) :
    (entries.map fun e => (e.1, Json.str e.2)).lookup key = (entries.lookup key).map .str := by
  induction entries with
  | nil => rfl
  | cons e rest ih =>
      rw [List.map_cons, List.lookup_cons, List.lookup_cons, ih]
      cases key == e.1 <;> rfl

end SharedOS.Foundation
