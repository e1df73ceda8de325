/-
SharedOS.Foundation.KeyOrder — equality of JSON values up to the order of object keys, and what a
sorted text of a value can tell apart.

`KeyOrderEq` is the equality meant: at every depth, the same keys with equal values. A text made by
sorting the keys of every object with a stable sort decides it up to the ties of the comparison:
two values have one sorted form exactly when they are equal up to key order and no two keys that
tie stand the other way round anywhere inside (`keyForm_eq_iff`).
-/
import SharedOS.Foundation.Json
import SharedOS.Foundation.StableSort

namespace SharedOS.Foundation

/-- The number without the sign of a zero, which no comparison of values sees. -/
def JsNumber.unsigned : JsNumber → JsNumber
  | .negZero => .finite 0
  | x => x

namespace Json

/-! ## Equality up to key order -/

/-- **Equality up to the order of keys**, at every depth. -/
inductive KeyOrderEq : Json → Json → Prop
  | null : KeyOrderEq .null .null
  | bool (b : Bool) : KeyOrderEq (.bool b) (.bool b)
  | num {x y : JsNumber} : x.unsigned = y.unsigned → KeyOrderEq (.num x) (.num y)
  | str (s : JsString) : KeyOrderEq (.str s) (.str s)
  | arr {xs ys : List Json} : xs.length = ys.length →
      (∀ (i : ℕ) (v w : Json), xs[i]? = some v → ys[i]? = some w → KeyOrderEq v w) →
      KeyOrderEq (.arr xs) (.arr ys)
  | obj {es es' : List (JsString × Json)} : (es.map Prod.fst).Perm (es'.map Prod.fst) →
      (∀ (k : JsString) (v w : Json), (k, v) ∈ es → (k, w) ∈ es' → KeyOrderEq v w) →
      KeyOrderEq (.obj es) (.obj es')

/-- Somewhere at one place inside both values, two keys that the comparison ties stand one way round
in the first and the other way round in the second. -/
inductive SwapsTie (cmp : JsString → JsString → Int) : Json → Json → Prop
  | here {es es' : List (JsString × Json)} :
      SwappedTie cmp (es.map Prod.fst) (es'.map Prod.fst) → SwapsTie cmp (.obj es) (.obj es')
  | entry {es es' : List (JsString × Json)} {k : JsString} {v w : Json} : (k, v) ∈ es →
      (k, w) ∈ es' → SwapsTie cmp v w → SwapsTie cmp (.obj es) (.obj es')
  | item {xs ys : List Json} {i : ℕ} {v w : Json} : xs[i]? = some v → ys[i]? = some w →
      SwapsTie cmp v w → SwapsTie cmp (.arr xs) (.arr ys)

/-- A value of JSON over the numbers `D`: no number is infinite or not a number, and no object has
a key twice. -/
inductive IsValue (D : ℚ → Prop) : Json → Prop
  | null : IsValue D .null
  | bool (b : Bool) : IsValue D (.bool b)
  | negZero : IsValue D (.num .negZero)
  | num {q : ℚ} : D q → IsValue D (.num (.finite q))
  | str (s : JsString) : IsValue D (.str s)
  | arr {items : List Json} : (∀ v ∈ items, IsValue D v) → IsValue D (.arr items)
  | obj {entries : List (JsString × Json)} : (entries.map Prod.fst).Nodup →
      (∀ e ∈ entries, IsValue D e.2) → IsValue D (.obj entries)

/-- What the text of a number promises over the numbers `D`: it is a JSON number, distinct numbers
have distinct texts, and zero is written `0`. -/
structure NumberTexts (fmt : ℚ → JsString) (D : ℚ → Prop) : Prop where
  readable : ReadableNumbers fmt fun x => ∃ q, D q ∧ x = .finite q
  zero : D 0
  zeroText : fmt 0 = "0"

/-! ## The sorted form -/

section KeyForm

variable (cmp : JsString → JsString → Int)

mutual

/-- The value with the keys of every object sorted and every zero unsigned. -/
def keyForm : Json → Json
  | .num x => .num x.unsigned
  | .arr items => .arr (keyFormItems items)
  | .obj entries => .obj (sortEntries cmp (keyFormEntries entries))
  | v => v

/-- The items of an array, each in key form. -/
def keyFormItems : List Json → List Json
  | [] => []
  | v :: rest => keyForm v :: keyFormItems rest

/-- The entries of an object, their values in key form. -/
def keyFormEntries : List (JsString × Json) → List (JsString × Json)
  | [] => []
  | (k, v) :: rest => (k, keyForm v) :: keyFormEntries rest

end

@[simp] theorem keyFormItems_eq_map (items : List Json) :
    keyFormItems cmp items = items.map (keyForm cmp) := by
  induction items with
  | nil => rfl
  | cons v rest ih => simp only [keyFormItems, ih, List.map_cons]

@[simp] theorem keyFormEntries_eq_map (entries : List (JsString × Json)) :
    keyFormEntries cmp entries = entries.map fun e => (e.1, keyForm cmp e.2) := by
  induction entries with
  | nil => rfl
  | cons e rest ih => simp only [keyFormEntries, ih, List.map_cons]

/-- The keys of a sorted object are its keys, sorted. -/
theorem keys_sortEntries {α : Type*} (entries : List (JsString × α)) :
    (sortEntries cmp entries).map Prod.fst =
      (entries.map Prod.fst).insertionSort fun k k' => cmp k k' ≤ 0 := by
  unfold sortEntries
  rw [List.map_insertionSort (fun a b : JsString × α => cmp a.1 b.1 ≤ 0)
    (fun k k' : JsString => cmp k k' ≤ 0)]
  intro a _ b _
  exact Iff.rfl

variable {cmp}

/-- An entry of an object whose sorted form is another's has a counterpart there. -/
theorem entry_of_keyForm_eq {es es' : List (JsString × Json)}
    (h : (Json.obj es).keyForm cmp = (Json.obj es').keyForm cmp) {k : JsString} {v : Json}
    (hmem : (k, v) ∈ es) : ∃ w, (k, w) ∈ es' ∧ v.keyForm cmp = w.keyForm cmp := by
  simp only [keyForm, keyFormEntries_eq_map, Json.obj.injEq] at h
  have hin : (k, v.keyForm cmp) ∈ es'.map fun e => (e.1, e.2.keyForm cmp) := by
    rw [← (sortEntries_perm cmp _).mem_iff, ← h, (sortEntries_perm cmp _).mem_iff]
    exact List.mem_map_of_mem (f := fun e : JsString × Json => (e.1, e.2.keyForm cmp)) hmem
  obtain ⟨⟨k', w⟩, hw, heq⟩ := List.mem_map.mp hin
  obtain ⟨rfl, hform⟩ := Prod.mk.inj heq
  exact ⟨w, hw, hform.symm⟩

/-- Under distinct keys the counterpart is the entry of that key. -/
theorem keyForm_field {es es' : List (JsString × Json)} (hkeys : (es'.map Prod.fst).Nodup)
    (h : (Json.obj es).keyForm cmp = (Json.obj es').keyForm cmp) {k : JsString} {v w : Json}
    (hv : (k, v) ∈ es) (hw : (k, w) ∈ es') : v.keyForm cmp = w.keyForm cmp := by
  obtain ⟨w', hw', heq⟩ := entry_of_keyForm_eq h hv
  have hsame := List.inj_on_of_nodup_map hkeys hw' hw rfl
  rw [heq, (Prod.mk.inj hsame).2]

theorem keyForm_item {xs ys : List Json}
    (h : (Json.arr xs).keyForm cmp = (Json.arr ys).keyForm cmp) {i : ℕ} {v w : Json}
    (hv : xs[i]? = some v) (hw : ys[i]? = some w) : v.keyForm cmp = w.keyForm cmp := by
  simp only [keyForm, keyFormItems_eq_map, Json.arr.injEq] at h
  have hi := congrArg (·[i]?) h
  simp only [List.getElem?_map, hv, hw, Option.map_some, Option.some.injEq] at hi
  exact hi

/-- The sorted keys of two objects with one sorted form are the same list. -/
theorem keyForm_keys {es es' : List (JsString × Json)}
    (h : (Json.obj es).keyForm cmp = (Json.obj es').keyForm cmp) :
    (es.map Prod.fst).insertionSort (fun k k' => cmp k k' ≤ 0) =
      (es'.map Prod.fst).insertionSort (fun k k' => cmp k k' ≤ 0) := by
  simp only [keyForm, keyFormEntries_eq_map, Json.obj.injEq] at h
  have hkeys := congrArg (List.map Prod.fst) h
  rw [keys_sortEntries, keys_sortEntries, List.map_map, List.map_map] at hkeys
  exact hkeys

/-- **One sorted form, equal up to key order.** -/
theorem keyOrderEq_of_keyForm_eq {D : ℚ → Prop} {v : Json} :
    ∀ {w : Json}, IsValue D w → v.keyForm cmp = w.keyForm cmp → KeyOrderEq v w := by
  induction v with
  | null =>
      intro w _ h
      cases w <;> simp only [keyForm, reduceCtorEq] at h
      exact .null
  | bool b =>
      intro w _ h
      cases w <;> simp only [keyForm, reduceCtorEq, Json.bool.injEq] at h
      rw [h]
      exact .bool _
  | num x =>
      intro w _ h
      cases w <;> simp only [keyForm, reduceCtorEq, Json.num.injEq] at h
      exact .num h
  | str s =>
      intro w _ h
      cases w <;> simp only [keyForm, reduceCtorEq, Json.str.injEq] at h
      rw [h]
      exact .str _
  | arr xs ih =>
      intro w hw h
      cases hw with
      | arr hys =>
          refine .arr ?_ ?_
          · simp only [keyForm, keyFormItems_eq_map, Json.arr.injEq] at h
            have hlength := congrArg List.length h
            rwa [List.length_map, List.length_map] at hlength
          · intro i v w hv hw
            exact ih v (List.mem_of_getElem? hv) (hys w (List.mem_of_getElem? hw))
              (keyForm_item h hv hw)
      | _ => simp only [keyForm, reduceCtorEq] at h
  | obj es ih =>
      intro w hw h
      cases hw with
      | obj hkeys hvalues =>
          refine .obj ?_ ?_
          · exact ((List.perm_insertionSort _ _).symm.trans
              (.of_eq (keyForm_keys h))).trans (List.perm_insertionSort _ _)
          · intro k v w hv hw
            exact ih (k, v) hv (hvalues (k, w) hw) (keyForm_field hkeys h hv hw)
      | _ => simp only [keyForm, reduceCtorEq] at h

/-- **One sorted form, no swapped tie.** -/
theorem not_swapsTie_of_keyForm_eq {D : ℚ → Prop} (hcmp : ConsistentComparison cmp) {v w : Json}
    (hv : IsValue D v) (hw : IsValue D w) (h : v.keyForm cmp = w.keyForm cmp) :
    ¬ SwapsTie cmp v w := by
  intro hswap
  induction hswap with
  | @here es es' htie =>
      cases hv with
      | obj hkeys hvalues =>
          have hperm := ((List.perm_insertionSort (fun k k' => cmp k k' ≤ 0) _).symm.trans
            (.of_eq (keyForm_keys h))).trans (List.perm_insertionSort _ _)
          exact (insertionSort_eq_iff hcmp hperm hkeys).mp (keyForm_keys h) htie
  | entry hin hin' _ ih =>
      cases hv with
      | obj hkeys hvalues =>
          cases hw with
          | obj hkeys' hvalues' =>
              exact ih (hvalues _ hin) (hvalues' _ hin') (keyForm_field hkeys' h hin hin')
  | item hin hin' _ ih =>
      cases hv with
      | arr hvalues =>
          cases hw with
          | arr hvalues' =>
              exact ih (hvalues _ (List.mem_of_getElem? hin)) (hvalues' _ (List.mem_of_getElem? hin'))
                (keyForm_item h hin hin')

/-- The entries of two objects with the same keys and equal values are the same entries. -/
theorem perm_of_keys_perm {α : Type*} {es es' : List (JsString × α)}
    (hkeys : (es.map Prod.fst).Nodup) (hperm : (es.map Prod.fst).Perm (es'.map Prod.fst))
    (hvalues : ∀ k v w, (k, v) ∈ es → (k, w) ∈ es' → v = w) : es.Perm es' := by
  have hkeys' := hperm.nodup_iff.mp hkeys
  have hsub : ∀ {xs ys : List (JsString × α)}, (xs.map Prod.fst).Perm (ys.map Prod.fst) →
      (∀ k v w, (k, v) ∈ xs → (k, w) ∈ ys → v = w) → ∀ e ∈ xs, e ∈ ys := by
    rintro xs ys hxy hsame ⟨k, v⟩ he
    obtain ⟨⟨k', w⟩, hw, rfl⟩ := List.mem_map.mp
      (hxy.mem_iff.mp (List.mem_map_of_mem (f := Prod.fst) he))
    rw [hsame k' v w he hw]
    exact hw
  refine (List.perm_ext_iff_of_nodup hkeys.of_map hkeys'.of_map).mpr ?_
  intro e
  exact ⟨hsub hperm hvalues e, hsub hperm.symm (fun k v w hv hw => (hvalues k w v hw hv).symm) e⟩

/-- A stable sort by key of the same entries is one list when no tied keys are swapped. -/
theorem sortEntries_eq_of_no_swap {α : Type*} (hcmp : ConsistentComparison cmp)
    {es es' : List (JsString × α)} (hkeys : (es.map Prod.fst).Nodup) (hperm : es.Perm es')
    (hnone : ¬ SwappedTie cmp (es.map Prod.fst) (es'.map Prod.fst)) :
    sortEntries cmp es = sortEntries cmp es' := by
  refine (insertionSort_eq_iff (hcmp.comap Prod.fst) hperm hkeys.of_map).mpr ?_
  rintro ⟨e, e', hne, htie, hbefore, hafter⟩
  refine hnone ⟨e.1, e'.1, ?_, htie, hbefore.map Prod.fst, hafter.map Prod.fst⟩
  intro hsame
  exact hne (List.inj_on_of_nodup_map hkeys hbefore.mem.1 hbefore.mem.2 hsame)

/-- **Equal up to key order with no swapped tie, one sorted form.** -/
theorem keyForm_eq_of_keyOrderEq {D : ℚ → Prop} (hcmp : ConsistentComparison cmp) {v w : Json}
    (heq : KeyOrderEq v w) (hv : IsValue D v) (hw : IsValue D w) (hnone : ¬ SwapsTie cmp v w) :
    v.keyForm cmp = w.keyForm cmp := by
  induction heq with
  | null => rfl
  | bool b => rfl
  | num h => exact congrArg Json.num h
  | str s => rfl
  | @arr xs ys hlength _ ih =>
      cases hv with
      | arr hvalues =>
          cases hw with
          | arr hvalues' =>
              simp only [keyForm, keyFormItems_eq_map, Json.arr.injEq]
              refine List.ext_getElem? fun i => ?_
              rw [List.getElem?_map, List.getElem?_map]
              cases hx : xs[i]? with
              | none =>
                  rw [List.getElem?_eq_none_iff, hlength, ← List.getElem?_eq_none_iff] at hx
                  rw [hx]
              | some v =>
                  obtain ⟨hi, -⟩ := List.getElem?_eq_some_iff.mp hx
                  obtain ⟨w, hy⟩ : ∃ w, ys[i]? = some w :=
                    ⟨_, List.getElem?_eq_getElem (hlength ▸ hi)⟩
                  rw [hy]
                  refine congrArg some (ih i _ _ hx hy (hvalues _ (List.mem_of_getElem? hx))
                    (hvalues' _ (List.mem_of_getElem? hy)) ?_)
                  exact fun hswap => hnone (.item hx hy hswap)
  | @obj es es' hperm _ ih =>
      cases hv with
      | obj hkeys hvalues =>
          cases hw with
          | obj hkeys' hvalues' =>
              -- a key has one value on each side, and their sorted forms are the same by induction
              have hsame : ∀ k v w, (k, v) ∈ es.map (fun e => (e.1, e.2.keyForm cmp)) →
                  (k, w) ∈ es'.map (fun e => (e.1, e.2.keyForm cmp)) → v = w := by
                intro k v w hv hw
                obtain ⟨⟨k₁, v₁⟩, hin, heq⟩ := List.mem_map.mp hv
                obtain ⟨⟨k₂, v₂⟩, hin', heq'⟩ := List.mem_map.mp hw
                obtain ⟨rfl, rfl⟩ := Prod.mk.inj heq
                obtain ⟨rfl, rfl⟩ := Prod.mk.inj heq'
                exact ih _ _ _ hin hin' (hvalues _ hin) (hvalues' _ hin')
                  fun hswap => hnone (.entry hin hin' hswap)
              have hfst : ∀ l : List (JsString × Json),
                  (l.map fun e => (e.1, e.2.keyForm cmp)).map Prod.fst = l.map Prod.fst := by
                intro l
                rw [List.map_map]
                rfl
              simp only [keyForm, keyFormEntries_eq_map, Json.obj.injEq]
              refine sortEntries_eq_of_no_swap hcmp ?_ (perm_of_keys_perm ?_ ?_ hsame) ?_
              · rw [hfst]
                exact hkeys
              · rw [hfst]
                exact hkeys
              · rw [hfst, hfst]
                exact hperm
              · rw [hfst, hfst]
                exact fun htie => hnone (.here htie)

/-- **What the sorted form tells apart.** -/
theorem keyForm_eq_iff {D : ℚ → Prop} (hcmp : ConsistentComparison cmp) {v w : Json}
    (hv : IsValue D v) (hw : IsValue D w) :
    v.keyForm cmp = w.keyForm cmp ↔ KeyOrderEq v w ∧ ¬ SwapsTie cmp v w := by
  constructor
  · intro h
    exact ⟨keyOrderEq_of_keyForm_eq hw h, not_swapsTie_of_keyForm_eq hcmp hv hw h⟩
  · rintro ⟨heq, hnone⟩
    exact keyForm_eq_of_keyOrderEq hcmp heq hv hw hnone

/-! ## The text of the sorted form -/

variable {fmt : ℚ → JsString} {D : ℚ → Prop}

/-- The sign of a zero is not written. -/
theorem stringify_keyForm (hzero : fmt 0 = "0") (v : Json) :
    stringify fmt (v.keyForm cmp) = stringify fmt (v.sortKeys cmp) := by
  induction v with
  | null => rfl
  | bool b => rfl
  | num x =>
      cases x with
      | negZero => exact hzero
      | _ => rfl
  | str s => rfl
  | arr items ih =>
      simp only [keyForm, sortKeys, keyFormItems_eq_map, sortKeysItems_eq_map, stringify,
        stringifyItems_eq_map, List.map_map]
      rw [List.map_congr_left (f := stringify fmt ∘ keyForm cmp) ih]
      rfl
  | obj entries ih =>
      have htexts : (entries.map fun e => (e.1, e.2.keyForm cmp)).map
          (fun e => (e.1, stringify fmt e.2)) =
          (entries.map fun e => (e.1, e.2.sortKeys cmp)).map
            (fun e => (e.1, stringify fmt e.2)) := by
        rw [List.map_map, List.map_map]
        exact List.map_congr_left fun e he => congrArg (Prod.mk e.1) (ih e he)
      simp only [keyForm, sortKeys, keyFormEntries_eq_map, sortKeysEntries_eq_map, stringify,
        stringifyEntries_eq_map]
      rw [← sortEntries_map, ← sortEntries_map, htexts]

/-- The numbers of a sorted form are finite, and none is a negative zero. -/
theorem IsValue.numbersIn_keyForm (hzero : D 0) {v : Json} (h : IsValue D v) :
    NumbersIn (fun x => ∃ q, D q ∧ x = .finite q) (v.keyForm cmp) := by
  induction h with
  | null => exact .null
  | bool b => exact .bool b
  | negZero => exact .num ⟨0, hzero, rfl⟩
  | num hq => exact .num ⟨_, hq, rfl⟩
  | str s => exact .str s
  | arr _ ih =>
      simp only [keyForm, keyFormItems_eq_map]
      refine .arr fun w hw => ?_
      obtain ⟨v, hv, rfl⟩ := List.mem_map.mp hw
      exact ih v hv
  | obj _ _ ih =>
      simp only [keyForm, keyFormEntries_eq_map]
      refine .obj fun e he => ?_
      rw [(sortEntries_perm cmp _).mem_iff] at he
      obtain ⟨e', he', rfl⟩ := List.mem_map.mp he
      exact ih e' he'

/-- **The sorted text decides the sorted form.** -/
theorem stringify_sortKeys_eq_iff (htexts : NumberTexts fmt D) {v w : Json} (hv : IsValue D v)
    (hw : IsValue D w) : stringify fmt (v.sortKeys cmp) = stringify fmt (w.sortKeys cmp) ↔
      v.keyForm cmp = w.keyForm cmp := by
  rw [← stringify_keyForm htexts.zeroText, ← stringify_keyForm htexts.zeroText]
  constructor
  · intro h
    have htext : stringify fmt (v.keyForm cmp) ++ [] = stringify fmt (w.keyForm cmp) ++ [] := by
      rw [h]
    exact (stringify_append_inj htexts.readable (hv.numbersIn_keyForm htexts.zero)
      (hw.numbersIn_keyForm htexts.zero) (.inl rfl) (.inl rfl) htext).1
  · intro h
    rw [h]

end KeyForm

end Json

end SharedOS.Foundation
