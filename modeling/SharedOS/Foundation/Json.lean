/-
SharedOS.Foundation.Json — JSON values, `JSON.stringify`, and why its text is unambiguous.

A value is the tree a JavaScript program holds, with the entries of an object in insertion order.
`stringify` is the text the language gives it, and `stringify_append_inj` says the text can be
read back: a value followed by a separator, a closing bracket or nothing is determined by the
text. How a finite number is written is a parameter, and what is asked of it (`ReadableNumbers`)
is asked of the numbers that occur only. A value without numbers asks nothing.

`sortKeys` is the value with the entries of every object reordered by a comparison of keys. No law
is asked of that comparison: a stable sort by it is a permutation whatever it answers.
-/
import Mathlib.Data.List.Sort
import Mathlib.Data.Rat.Defs
import SharedOS.Foundation.Text

namespace SharedOS.Foundation

/-! ## Values -/

/-- A number of the language. A finite one other than negative zero is its exact value. -/
inductive JsNumber where
  | nan
  | posInfinity
  | negInfinity
  | negZero
  | finite (q : ℚ)
  deriving DecidableEq

/-- A JSON value. -/
inductive Json where
  | null
  | bool (b : Bool)
  | num (x : JsNumber)
  | str (s : JsString)
  | arr (items : List Json)
  | obj (entries : List (JsString × Json))

namespace Json

/-- Structural induction, with the hypothesis for every item and every entry. -/
@[elab_as_elim, induction_eliminator]
theorem induction {P : Json → Prop} (null : P .null) (bool : ∀ b, P (.bool b))
    (num : ∀ x, P (.num x)) (str : ∀ s, P (.str s))
    (arr : ∀ items, (∀ v ∈ items, P v) → P (.arr items))
    (obj : ∀ entries, (∀ e ∈ entries, P e.2) → P (.obj entries)) : ∀ v, P v := by
  intro v
  refine @Json.rec P (fun items => ∀ v ∈ items, P v) (fun entries => ∀ e ∈ entries, P e.2)
    (fun e => P e.2) null bool num str arr obj ?_ ?_ ?_ ?_ ?_ v
  · simp
  · intro head tail hhead htail w hw
    rcases List.mem_cons.mp hw with rfl | hw
    · exact hhead
    · exact htail w hw
  · simp
  · intro head tail hhead htail e he
    rcases List.mem_cons.mp he with rfl | he
    · exact hhead
    · exact htail e he
  · exact fun _ _ h => h

/-! ## `JSON.stringify` -/

section Stringify

variable (fmt : ℚ → JsString)

/-- What `JSON.stringify` writes for a number. -/
def numberText : JsNumber → JsString
  | .nan | .posInfinity | .negInfinity => "null"
  | .negZero => "0"
  | .finite q => fmt q

/-- One entry of an object, from its key and the text of its value. -/
def entryText (e : JsString × JsString) : JsString := quote e.1 ++ 0x3A :: e.2

mutual

/-- `JSON.stringify` on a JSON value. -/
def stringify : Json → JsString
  | .null => "null"
  | .bool true => "true"
  | .bool false => "false"
  | .num x => numberText fmt x
  | .str s => quote s
  | .arr items => 0x5B :: (commaJoin (stringifyItems items) ++ [0x5D])
  | .obj entries => 0x7B :: (commaJoin ((stringifyEntries entries).map entryText) ++ [0x7D])

/-- The items of an array, each written. -/
def stringifyItems : List Json → List JsString
  | [] => []
  | v :: rest => stringify v :: stringifyItems rest

/-- The entries of an object, their values written. -/
def stringifyEntries : List (JsString × Json) → List (JsString × JsString)
  | [] => []
  | (k, v) :: rest => (k, stringify v) :: stringifyEntries rest

end

@[simp] theorem stringifyItems_eq_map (items : List Json) :
    stringifyItems fmt items = items.map (stringify fmt) := by
  induction items with
  | nil => rfl
  | cons v rest ih => simp only [stringifyItems, ih, List.map_cons]

@[simp] theorem stringifyEntries_eq_map (entries : List (JsString × Json)) :
    stringifyEntries fmt entries = entries.map fun e => (e.1, stringify fmt e.2) := by
  induction entries with
  | nil => rfl
  | cons e rest ih => simp only [stringifyEntries, ih, List.map_cons]

end Stringify

/-! ## Sorting the keys of every object -/

section SortKeys

variable (cmp : JsString → JsString → Int)

/-- `entries.sort(([left], [right]) => cmp(left, right))`. -/
def sortEntries {α : Type*} (entries : List (JsString × α)) : List (JsString × α) :=
  entries.insertionSort fun a b => cmp a.1 b.1 ≤ 0

theorem sortEntries_perm {α : Type*} (entries : List (JsString × α)) :
    (sortEntries cmp entries).Perm entries :=
  List.perm_insertionSort _ entries

/-- The sort reads keys only, so it commutes with any map of the values. -/
theorem sortEntries_map {α β : Type*} (f : α → β) (entries : List (JsString × α)) :
    sortEntries cmp (entries.map fun e => (e.1, f e.2)) =
      (sortEntries cmp entries).map fun e => (e.1, f e.2) := by
  unfold sortEntries
  rw [List.map_insertionSort (fun a b : JsString × α => cmp a.1 b.1 ≤ 0)
    (fun a b : JsString × β => cmp a.1 b.1 ≤ 0)]
  intro a _ b _
  exact Iff.rfl

mutual

/-- The value with the entries of every object sorted. -/
def sortKeys : Json → Json
  | .arr items => .arr (sortKeysItems items)
  | .obj entries => .obj (sortEntries cmp (sortKeysEntries entries))
  | v => v

/-- The items of an array, their keys sorted. -/
def sortKeysItems : List Json → List Json
  | [] => []
  | v :: rest => sortKeys v :: sortKeysItems rest

/-- The entries of an object, the keys of their values sorted. -/
def sortKeysEntries : List (JsString × Json) → List (JsString × Json)
  | [] => []
  | (k, v) :: rest => (k, sortKeys v) :: sortKeysEntries rest

end

@[simp] theorem sortKeysItems_eq_map (items : List Json) :
    sortKeysItems cmp items = items.map (sortKeys cmp) := by
  induction items with
  | nil => rfl
  | cons v rest ih => simp only [sortKeysItems, ih, List.map_cons]

@[simp] theorem sortKeysEntries_eq_map (entries : List (JsString × Json)) :
    sortKeysEntries cmp entries = entries.map fun e => (e.1, sortKeys cmp e.2) := by
  induction entries with
  | nil => rfl
  | cons e rest ih => simp only [sortKeysEntries, ih, List.map_cons]

end SortKeys

/-! ## Which numbers occur -/

/-- Every number of the value is one of `N`. -/
inductive NumbersIn (N : JsNumber → Prop) : Json → Prop
  | null : NumbersIn N .null
  | bool (b : Bool) : NumbersIn N (.bool b)
  | num {x : JsNumber} : N x → NumbersIn N (.num x)
  | str (s : JsString) : NumbersIn N (.str s)
  | arr {items : List Json} : (∀ v ∈ items, NumbersIn N v) → NumbersIn N (.arr items)
  | obj {entries : List (JsString × Json)} :
      (∀ e ∈ entries, NumbersIn N e.2) → NumbersIn N (.obj entries)

/-- A value in which no number occurs. -/
abbrev NumberFree : Json → Prop := NumbersIn fun _ => False

/-- Reordering entries changes no number. -/
theorem NumbersIn.sortKeys {N : JsNumber → Prop} {cmp : JsString → JsString → Int} {v : Json}
    (h : NumbersIn N v) : NumbersIn N (v.sortKeys cmp) := by
  induction v with
  | null => exact h
  | bool b => exact h
  | num x => exact h
  | str s => exact h
  | arr items ih =>
      cases h with
      | arr h =>
          simp only [Json.sortKeys, sortKeysItems_eq_map]
          refine .arr fun w hw => ?_
          obtain ⟨v, hv, rfl⟩ := List.mem_map.mp hw
          exact ih v hv (h v hv)
  | obj entries ih =>
      cases h with
      | obj h =>
          simp only [Json.sortKeys, sortKeysEntries_eq_map]
          refine .obj fun e he => ?_
          rw [(sortEntries_perm cmp _).mem_iff] at he
          obtain ⟨e', he', rfl⟩ := List.mem_map.mp he
          exact ih e' he' (h e' he')

/-- The code units a JSON number is written with. -/
def isNumberUnit (u : CodeUnit) : Bool :=
  (0x30 ≤ u && u ≤ 0x39) || u == 0x2D || u == 0x2B || u == 0x2E || u == 0x65

/-- `fmt` writes the numbers of `N` as JSON numbers, each differently. -/
structure ReadableNumbers (fmt : ℚ → JsString) (N : JsNumber → Prop) : Prop where
  injective : ∀ x y, N x → N y → numberText fmt x = numberText fmt y → x = y
  nonempty : ∀ x, N x → numberText fmt x ≠ []
  units : ∀ x, N x → ∀ u ∈ numberText fmt x, isNumberUnit u = true

/-- No numbers are readable in any format. -/
theorem readableNumbers_none (fmt : ℚ → JsString) : ReadableNumbers fmt fun _ => False :=
  ⟨fun _ _ h => h.elim, fun _ h => h.elim, fun _ h => h.elim⟩

/-! ## Reading the text back -/

/-- What may follow a value: nothing, a separator or a closing bracket. -/
def Delimited (r : JsString) : Prop :=
  r = [] ∨ ∃ rest, r = 0x2C :: rest ∨ r = 0x5D :: rest ∨ r = 0x7D :: rest

/-- Two texts of number units, each followed by a delimiter, end at the same place. -/
theorem numberUnits_append_inj {s t r r' : JsString} (hs : ∀ u ∈ s, isNumberUnit u = true)
    (ht : ∀ u ∈ t, isNumberUnit u = true) (hr : Delimited r) (hr' : Delimited r')
    (h : s ++ r = t ++ r') : s = t ∧ r = r' := by
  have hstop : ∀ {x : CodeUnit} {y r : JsString}, isNumberUnit x = true → Delimited r →
      x :: y ≠ r := by
    rintro x y r hx (rfl | ⟨rest, rfl | rfl | rfl⟩) heq
    · cases heq
    all_goals
      obtain ⟨rfl, _⟩ := List.cons.inj heq
      exact absurd hx (by decide)
  induction s generalizing t with
  | nil =>
      cases t with
      | nil => exact ⟨rfl, h⟩
      | cons v t => exact absurd h.symm (hstop (ht v (List.mem_cons_self ..)) hr)
  | cons u s ih =>
      cases t with
      | nil => exact absurd h (hstop (hs u (List.mem_cons_self ..)) hr')
      | cons v t =>
          obtain ⟨rfl, hrest⟩ := List.cons.inj h
          obtain ⟨rfl, hrr⟩ := ih (fun w hw => hs w (List.mem_cons_of_mem _ hw))
            (fun w hw => ht w (List.mem_cons_of_mem _ hw)) hrest
          exact ⟨rfl, hrr⟩

/-- The kind of value a first code unit announces. -/
def headKind (u : CodeUnit) : Nat :=
  if isNumberUnit u then 0
  else if u = 0x6E then 1
  else if u = 0x74 then 2
  else if u = 0x66 then 3
  else if u = quotationMark then 4
  else if u = 0x5B then 5
  else if u = 0x7B then 6
  else 7

/-- The kind of a value, as its first code unit announces it. -/
def kind : Json → Nat
  | .num _ => 0
  | .null => 1
  | .bool true => 2
  | .bool false => 3
  | .str _ => 4
  | .arr _ => 5
  | .obj _ => 6

theorem kind_lt (v : Json) : v.kind < 7 := by
  rcases v with _ | (_ | _) | _ | _ | _ | _ <;> simp only [kind] <;> omega

section Reading

variable {fmt : ℚ → JsString} {N : JsNumber → Prop} (hfmt : ReadableNumbers fmt N)
include hfmt

theorem stringify_head {v : Json} (hv : NumbersIn N v) :
    ∃ u rest, stringify fmt v = u :: rest ∧ headKind u = v.kind := by
  cases hv with
  | null => exact ⟨_, _, rfl, by decide⟩
  | bool b => cases b <;> exact ⟨_, _, rfl, by decide⟩
  | num hx =>
      rename_i x
      obtain ⟨u, rest, hu⟩ := List.exists_cons_of_ne_nil (hfmt.nonempty x hx)
      refine ⟨u, rest, hu, ?_⟩
      have hunit := hfmt.units x hx u (hu ▸ List.mem_cons_self ..)
      simp only [headKind, hunit, if_true, kind]
  | str s => exact ⟨_, _, rfl, rfl⟩
  | arr _ => exact ⟨_, _, rfl, rfl⟩
  | obj _ => exact ⟨_, _, rfl, rfl⟩

/-- Two values with one text, whatever follows, are of one kind. -/
theorem kind_eq_of_append {v w : Json} {r r' : JsString} (hv : NumbersIn N v)
    (hw : NumbersIn N w) (h : stringify fmt v ++ r = stringify fmt w ++ r') :
    v.kind = w.kind := by
  obtain ⟨u, s, hs, hk⟩ := stringify_head hfmt hv
  obtain ⟨u', s', hs', hk'⟩ := stringify_head hfmt hw
  rw [hs, hs'] at h
  rw [← hk, ← hk', (List.cons.inj h).1]

/-- No value starts with a code unit that announces none. -/
theorem stringify_append_ne {v : Json} {u : CodeUnit} {r s : JsString} (hv : NumbersIn N v)
    (hu : headKind u = 7) : stringify fmt v ++ r ≠ u :: s := by
  intro h
  obtain ⟨u', s', hs, hk⟩ := stringify_head hfmt hv
  rw [hs] at h
  have hlt := kind_lt v
  rw [← hk, (List.cons.inj h).1, hu] at hlt
  omega

end Reading

/-- A comma-separated list of self-delimiting texts, up to its closing bracket, determines the
list. `f` is how one element is written, and the hypothesis on it is the one the induction over
values supplies. -/
theorem commaJoin_append_inj {α : Type*} {f : α → JsString} {close : CodeUnit}
    (hclose : close = 0x5D ∨ close = 0x7D) {xs ys : List α} {r r' : JsString}
    (hhead : ∀ x ∈ xs ++ ys, ∀ s t, f x ++ s ≠ close :: t)
    (hf : ∀ x ∈ xs, ∀ y ∈ ys, ∀ s t, Delimited s → Delimited t → f x ++ s = f y ++ t →
      x = y ∧ s = t)
    (h : commaJoin (xs.map f) ++ close :: r = commaJoin (ys.map f) ++ close :: r') :
    xs = ys ∧ r = r' := by
  -- what follows an element is a comma or the closing bracket
  have hdelim : ∀ (zs : List α) (q : JsString),
      Delimited ((zs.map f).flatMap (fun y => 0x2C :: y) ++ close :: q) := by
    intro zs q
    cases zs with
    | nil =>
        rcases hclose with rfl | rfl
        · exact .inr ⟨q, .inr (.inl rfl)⟩
        · exact .inr ⟨q, .inr (.inr rfl)⟩
    | cons z zs => exact .inr ⟨_, .inl rfl⟩
  have hcomma : close ≠ 0x2C := by
    rcases hclose with rfl | rfl <;> decide
  have htail : ∀ (xs ys : List α), (∀ x ∈ xs, ∀ y ∈ ys, ∀ s t, Delimited s → Delimited t →
      f x ++ s = f y ++ t → x = y ∧ s = t) →
      (xs.map f).flatMap (fun y => 0x2C :: y) ++ close :: r =
        (ys.map f).flatMap (fun y => 0x2C :: y) ++ close :: r' → xs = ys ∧ r = r' := by
    intro xs
    induction xs with
    | nil =>
        intro ys _ heq
        cases ys with
        | nil => exact ⟨rfl, (List.cons.inj heq).2⟩
        | cons y ys => exact absurd (List.cons.inj heq).1 hcomma
    | cons x xs ih =>
        intro ys hinj heq
        cases ys with
        | nil => exact absurd (List.cons.inj heq).1.symm hcomma
        | cons y ys =>
            simp only [List.map_cons, List.flatMap_cons, List.cons_append, List.append_assoc,
              List.cons.injEq, true_and] at heq
            obtain ⟨rfl, hrest⟩ := hinj x (List.mem_cons_self ..) y (List.mem_cons_self ..) _ _
              (hdelim xs r) (hdelim ys r') heq
            obtain ⟨rfl, hr⟩ := ih ys (fun a ha b hb => hinj a (List.mem_cons_of_mem _ ha) b
              (List.mem_cons_of_mem _ hb)) hrest
            exact ⟨rfl, hr⟩
  -- the first element has no comma before it
  cases xs with
  | nil =>
      cases ys with
      | nil => exact ⟨rfl, (List.cons.inj h).2⟩
      | cons y ys =>
          simp only [List.map_cons, commaJoin, List.append_assoc] at h
          exact absurd h.symm (hhead y (by simp) _ _)
  | cons x xs =>
      cases ys with
      | nil =>
          simp only [List.map_cons, commaJoin, List.append_assoc] at h
          exact absurd h (hhead x (by simp) _ _)
      | cons y ys =>
          simp only [List.map_cons, commaJoin, List.append_assoc] at h
          obtain ⟨rfl, hrest⟩ := hf x (List.mem_cons_self ..) y (List.mem_cons_self ..) _ _
            (hdelim xs r) (hdelim ys r') h
          obtain ⟨rfl, hr⟩ := htail xs ys (fun a ha b hb => hf a (List.mem_cons_of_mem _ ha) b
            (List.mem_cons_of_mem _ hb)) hrest
          exact ⟨rfl, hr⟩

/-- **JSON text is unambiguous.** A value whose numbers are readable is determined by its text,
and so is where the text ends. -/
theorem stringify_append_inj {fmt : ℚ → JsString} {N : JsNumber → Prop}
    (hfmt : ReadableNumbers fmt N) {v : Json} (hv : NumbersIn N v) :
    ∀ {w : Json} {r r' : JsString}, NumbersIn N w → Delimited r → Delimited r' →
      stringify fmt v ++ r = stringify fmt w ++ r' → v = w ∧ r = r' := by
  induction v with
  -- the first unit of a text tells the kind of its value
  | null =>
      intro w r r' hw _ _ h
      have hkind := kind_eq_of_append hfmt hv hw h
      rcases w with _ | (_ | _) | _ | _ | _ | _ <;> simp only [kind] at hkind <;> try omega
      exact ⟨rfl, List.append_cancel_left h⟩
  | bool b =>
      intro w r r' hw _ _ h
      have hkind := kind_eq_of_append hfmt hv hw h
      cases b <;> rcases w with _ | (_ | _) | _ | _ | _ | _ <;> simp only [kind] at hkind <;>
        try omega
      · exact ⟨rfl, List.append_cancel_left h⟩
      · exact ⟨rfl, List.append_cancel_left h⟩
  | num x =>
      intro w r r' hw hr hr' h
      have hkind := kind_eq_of_append hfmt hv hw h
      rcases w with _ | (_ | _) | y | _ | _ | _ <;> simp only [kind] at hkind <;> try omega
      cases hv with
      | num hx =>
          cases hw with
          | num hy =>
              obtain ⟨htext, hrr⟩ := numberUnits_append_inj (hfmt.units x hx) (hfmt.units y hy)
                hr hr' h
              exact ⟨congrArg Json.num (hfmt.injective x y hx hy htext), hrr⟩
  | str s =>
      intro w r r' hw _ _ h
      have hkind := kind_eq_of_append hfmt hv hw h
      rcases w with _ | (_ | _) | _ | t | _ | _ <;> simp only [kind] at hkind <;> try omega
      obtain ⟨rfl, hrr⟩ := quote_append_inj h
      exact ⟨rfl, hrr⟩
  | arr items ih =>
      intro w r r' hw _ _ h
      have hkind := kind_eq_of_append hfmt hv hw h
      rcases w with _ | (_ | _) | _ | _ | items' | _ <;> simp only [kind] at hkind <;> try omega
      cases hv with
      | arr hv =>
          cases hw with
          | arr hw =>
              simp only [stringify, stringifyItems_eq_map, List.cons_append, List.append_assoc,
                List.nil_append, List.cons.injEq, true_and] at h
              obtain ⟨rfl, hrr⟩ := commaJoin_append_inj (.inl rfl) (fun x hx s t => by
                rcases List.mem_append.mp hx with hx | hx
                · exact stringify_append_ne hfmt (hv x hx) (by decide)
                · exact stringify_append_ne hfmt (hw x hx) (by decide))
                (fun x hx y hy s t hs ht heq => ih x hx (hv x hx) (hw y hy) hs ht heq) h
              exact ⟨rfl, hrr⟩
  | obj entries ih =>
      intro w r r' hw _ _ h
      have hkind := kind_eq_of_append hfmt hv hw h
      rcases w with _ | (_ | _) | _ | _ | _ | entries' <;> simp only [kind] at hkind <;> try omega
      cases hv with
      | obj hv =>
          cases hw with
          | obj hw =>
              simp only [stringify, stringifyEntries_eq_map, List.map_map, List.cons_append,
                List.append_assoc, List.nil_append, List.cons.injEq, true_and] at h
              obtain ⟨rfl, hrr⟩ := commaJoin_append_inj (.inr rfl)
                (fun e _ s t heq => absurd (List.cons.inj heq).1 (by decide))
                (fun e he e' he' s t hs ht heq => by
                  simp only [Function.comp_apply, entryText, List.append_assoc,
                    List.cons_append] at heq
                  obtain ⟨hkey, hrest⟩ := quote_append_inj heq
                  obtain ⟨hval, hst⟩ := ih e he (hv e he) (hw e' he') hs ht
                    (List.cons.inj hrest).2
                  exact ⟨Prod.ext hkey hval, hst⟩) h
              exact ⟨rfl, hrr⟩

/-- A value without numbers is determined by its text, in any number format. -/
theorem stringify_inj {fmt : ℚ → JsString} {v w : Json} (hv : NumberFree v) (hw : NumberFree w)
    (h : stringify fmt v = stringify fmt w) : v = w := by
  have htext : stringify fmt v ++ [] = stringify fmt w ++ [] := by rw [h]
  exact (stringify_append_inj (readableNumbers_none fmt) hv hw (.inl rfl) (.inl rfl) htext).1

end Json

end SharedOS.Foundation
