/-
SharedOS.Core.ReadJson — the walk that reads JSON, over objects with an identity.

One walk has two modes. It copies every container, or, on what `JSON.parse` made, it hands a
container back as it is until a key has to be dropped beneath it, and copies from there on. Both
modes read a tree as its schema does (`readJsonValue_spec`), and neither writes to a container it was
given. What carries the proof is that a copy under construction lies above everything the walk was
given and outside everything it has read.
-/
import SharedOS.Contracts.Capability
import SharedOS.Foundation.ObjectHeap

namespace SharedOS.Core

open SharedOS.Foundation SharedOS.Contracts

/-! ## The walk -/

/-- What one value was read as. -/
inductive JsonRead where
  | refused
  | read (value : Value)

/-- How the loop over a container ended: a refusal, or the copy it has made if any. -/
inductive WalkEnd where
  | refused
  | done (copy : Option ℕ)

/-- `copy.push(item)`. -/
def pushItem (heap : Heap) (address : ℕ) (item : Value) : Heap :=
  heap.modify address fun
    | .array items => .array (items ++ [item])
    | container => container

/-- `copy[key] = item`. -/
def assignKey (heap : Heap) (address : ℕ) (key : JsString) (item : Value) : Heap :=
  heap.modify address fun
    | .object own inherited builtin => .object (assignProperty own key item) inherited builtin
    | container => container

/-- `copyKeys`: the keys already accepted, in an object of their own. -/
def copyKeys (before : Properties) (heap : Heap) : Heap :=
  before.foldl (fun copied p => assignKey copied heap.length p.1 p.2)
    (heap ++ [.object [] [] false])

/-- A property as it is read. -/
def getProperty (own inherited : Properties) (key : JsString) : Value :=
  ((own.lookup key).or (inherited.lookup key)).getD .undefined

/-- `typeof value === "function"`. -/
def isFunction : Value → Bool
  | .function _ => true
  | _ => false

/-- `isRecordLike`. A `Map`, a `Set`, a `Date` and a promise are builtin. -/
def isRecordLike (value : Value) (heap : Heap) : Bool :=
  match value with
  | .ref address =>
    match heap[address]? with
    | some (.object own inherited builtin) =>
      !(isFunction (getProperty own inherited "then") &&
          isFunction (getProperty own inherited "catch")) && !builtin
    | _ => false
  | _ => false

/-- `enumerableKeys`, each with the value under it. -/
def enumerableProperties (own inherited : Properties) : Properties :=
  own ++ inherited.filter fun p => p.1 ∉ own.map Prod.fst

section Walk

variable (read : Value → Heap → Option (JsonRead × Heap))

/-- The loop over an array. `before` are the elements it has passed. -/
def readItems : List Value → Option ℕ → List Value → Heap → Option (WalkEnd × Heap)
  | _, copy, [], heap => some (.done copy, heap)
  | before, copy, value :: rest, heap => do
    let (item, heap) ← read value heap
    match item, copy with
    | .refused, _ => some (.refused, heap)
    | .read item, some address =>
      readItems (before ++ [value]) copy rest (pushItem heap address item)
    | .read item, none =>
      if item.strictEquals value then readItems (before ++ [value]) none rest heap
      else
        -- `value.slice(0, index)`, and the first element that is another one
        readItems (before ++ [value]) (some heap.length) rest
          (pushItem (heap ++ [.array before]) heap.length item)

/-- The loop over the keys of a record. -/
def readEntries : Properties → Option ℕ → Properties → Heap → Option (WalkEnd × Heap)
  | _, copy, [], heap => some (.done copy, heap)
  | before, copy, (key, value) :: rest, heap => do
    let (item, heap) ← read value heap
    match item, copy with
    | .refused, _ => some (.refused, heap)
    | .read item, some address =>
      -- the key is dropped, but its value had to be read
      if key = "__proto__" then readEntries (before ++ [(key, value)]) copy rest heap
      else readEntries (before ++ [(key, value)]) copy rest (assignKey heap address key item)
    | .read item, none =>
      if key = "__proto__" then
        readEntries (before ++ [(key, value)]) (some heap.length) rest (copyKeys before heap)
      else if item.strictEquals value then
        readEntries (before ++ [(key, value)]) none rest heap
      else
        readEntries (before ++ [(key, value)]) (some heap.length) rest
          (assignKey (copyKeys before heap) heap.length key item)

end Walk

/-- `copy ?? value`. -/
def walkResult (value : Value) : WalkEnd → JsonRead
  | .refused => .refused
  | .done copy => .read ((copy.map Value.ref).getD value)

/-- The copy a walk starts with: one at once, or none until something is dropped. -/
def startCopy (fresh : Bool) (empty : Container) (heap : Heap) : Option ℕ × Heap :=
  if fresh then (none, heap) else (some heap.length, heap ++ [empty])

/-- `readJsonValue`, with as much stack as the first argument says. -/
def readJsonValue (fresh : Bool) : ℕ → Value → Heap → Option (JsonRead × Heap)
  | 0, _, _ => none
  | stack + 1, value, heap =>
    match value with
    | .str _ | .bool _ | .null => some (.read value, heap)
    | .num (.finite _) | .num .negZero => some (.read value, heap)
    | .num _ => some (.refused, heap)
    | .undefined | .function _ | .foreign _ => some (.refused, heap)
    | .ref address =>
      match heap[address]? with
      | none => none
      | some (.array items) =>
        let start := startCopy fresh (.array []) heap
        (readItems (readJsonValue fresh stack) [] start.1 items start.2).map fun ended =>
          (walkResult value ended.1, ended.2)
      | some (.object own inherited _) =>
        if !isRecordLike value heap then some (.refused, heap)
        else
          let keys := if fresh then own else enumerableProperties own inherited
          let start := startCopy fresh (.object [] [] false) heap
          (readEntries (readJsonValue fresh stack) [] start.1 keys start.2).map fun ended =>
            (walkResult value ended.1, ended.2)

/-- `readJsonObject`. A refusal is `undefined`. -/
def readJsonObject (stack : ℕ) (value : Value) (heap : Heap) : Option (JsonRead × Heap) :=
  if !isRecordLike value heap then some (.refused, heap)
  else readJsonValue false stack value heap

/-! ## What the parser makes -/

/-- Every record of the tree has its keys in property order, each once. -/
inductive KeysOrdered : Json → Prop
  | null : KeysOrdered .null
  | bool (b : Bool) : KeysOrdered (.bool b)
  | num (x : JsNumber) : KeysOrdered (.num x)
  | str (s : JsString) : KeysOrdered (.str s)
  | arr {items : List Json} : (∀ v ∈ items, KeysOrdered v) → KeysOrdered (.arr items)
  | obj {entries : List (JsString × Json)} : PropertyOrdered entries →
      (∀ e ∈ entries, KeysOrdered e.2) → KeysOrdered (.obj entries)

/-- A tree that `JSON.parse` can make. -/
def ParsedJson := { v : Json // KeysOrdered v }

/-- Whether a value is one `parseJsonObject` goes on with: an object that is not an array. -/
def isPlainObject (value : Value) (heap : Heap) : Bool :=
  match value with
  | .ref address =>
    match heap[address]? with
    | some (.object ..) => true
    | _ => false
  | _ => false

/-- `parseJsonObject`. The parser lays what it has parsed out in containers of its own. -/
def parseJsonObject (parse : JsString → Option ParsedJson) (stack : ℕ) (text : JsString)
    (heap : Heap) : Option (JsonRead × Heap) :=
  match parse text with
  | none => some (.refused, heap)
  | some parsed =>
    let built := build parsed.val heap
    if !isPlainObject built.1 built.2 then some (.refused, built.2)
    else readJsonValue true stack built.1 built.2

/-! ## Writing to a copy -/

/-- A write at or above what was there leaves it there. -/
theorem prefix_modify {heap heap' : Heap} {address : ℕ} {f : Container → Container}
    (h : heap <+: heap') (hlow : heap.length ≤ address) : heap <+: heap'.modify address f := by
  rw [List.prefix_iff_getElem?] at h ⊢
  intro i hi
  rw [List.getElem?_modify_ne f heap' (by omega)]
  exact h i hi

/-- A write to what was allocated last. -/
theorem modify_last (heap : Heap) (c : Container) (f : Container → Container) :
    (heap ++ [c]).modify heap.length f = heap ++ [f c] := by
  induction heap with
  | nil => rfl
  | cons d rest ih =>
      show d :: (rest ++ [c]).modify rest.length f = d :: (rest ++ [f c])
      rw [ih]

theorem getElem?_pushItem {heap : Heap} {address : ℕ} {items : List Value} {item : Value}
    (h : heap[address]? = some (.array items)) :
    (pushItem heap address item)[address]? = some (.array (items ++ [item])) := by
  unfold pushItem
  rw [List.getElem?_modify_eq, h]
  rfl

theorem getElem?_assignKey {heap : Heap} {address : ℕ} {own : Properties} {key : JsString}
    {item : Value} (h : heap[address]? = some (.object own [] false)) :
    (assignKey heap address key item)[address]? =
      some (.object (assignProperty own key item) [] false) := by
  unfold assignKey
  rw [List.getElem?_modify_eq, h]
  rfl

/-- **Ordered keys are copied as they stand.** -/
theorem copyKeys_eq {before : Properties} {heap : Heap} (hordered : PropertyOrdered before)
    (hproto : ∀ k ∈ before.map Prod.fst, k ≠ "__proto__") :
    copyKeys before heap = heap ++ [.object before [] false] := by
  -- over the rest of the keys, from the ones already copied
  have hrest : ∀ rest own : Properties, PropertyOrdered (own ++ rest) →
      (∀ k ∈ rest.map Prod.fst, k ≠ "__proto__") →
      rest.foldl (fun copied p => assignKey copied heap.length p.1 p.2)
        (heap ++ [.object own [] false]) = heap ++ [.object (own ++ rest) [] false] := by
    intro rest
    induction rest with
    | nil =>
        intro own _ _
        rw [List.append_nil]
        rfl
    | cons p rest ih =>
        intro own hown hkeys
        have hlast : assignProperty own p.1 p.2 = own ++ [p] :=
          assignProperty_last (hkeys p.1 (by simp)) fun q hq =>
            hown.before q.1 (List.mem_map_of_mem hq)
        have hassign : assignKey (heap ++ [.object own [] false]) heap.length p.1 p.2 =
            heap ++ [.object (own ++ [p]) [] false] := by
          unfold assignKey
          rw [modify_last]
          show heap ++ [.object (assignProperty own p.1 p.2) [] false] = _
          rw [hlast]
        rw [List.foldl_cons, hassign, ih (own ++ [p]) (by simpa using hown)
          fun k hk => hkeys k (by simp at hk ⊢; exact .inr hk)]
        simp
  exact hrest before [] hordered hproto

/-! ## What a read comes to -/

/-- The walk has read a value that denotes `v` as the schema reads `v`. What it answers reaches only
what lay below `base` and what the walk allocated, and is the value itself only when nothing in it
has changed. -/
structure ReadsAs (base : ℕ) (heap : Heap) (v : Json) (value : Value) (item : JsonRead)
    (heap' : Heap) : Prop where
  grown : heap <+: heap'
  refused : jsonSchema v = none → item = .refused
  accepted : ∀ out, jsonSchema v = some out → ∃ w, item = .read w ∧
    Denotes heap' (fun a => a < base ∨ heap.length ≤ a) out w ∧
    (w.strictEquals value = true → w = value ∧ out = v)

/-- The walk reads whatever denotes `v`, anywhere below `base`. -/
def ReadsWell (base : ℕ) (read : Value → Heap → Option (JsonRead × Heap)) (v : Json) : Prop :=
  ∀ value heap, base ≤ heap.length → Denotes heap (· < base) v value →
    ∃ item heap', read value heap = some (item, heap') ∧ ReadsAs base heap v value item heap'

/-- What the loop over an array has copied: nothing while nothing has changed, and otherwise what it
has read, in a container above `low` that nothing read reaches. -/
def ItemsCopied (base low : ℕ) (heap : Heap) (done outs : List Json) : Option ℕ → Prop
  | none => outs = done
  | some address => low ≤ address ∧ ∃ values, heap[address]? = some (.array values) ∧
      DenotesItems heap (fun a => a < base ∨ (low ≤ a ∧ a ≠ address)) outs values

/-- A copy that is there is there in a grown heap, and one item more is pushed on it. -/
theorem ItemsCopied.push {base low : ℕ} {heap heap' : Heap} {done outs : List Json} {address : ℕ}
    {out : Json} {w : Value} {v : Json} (h : ItemsCopied base low heap done outs (some address))
    (hbase : base ≤ low) (hgrown : heap <+: heap')
    (hw : Denotes heap' (fun a => a < base ∨ heap.length ≤ a) out w) :
    ItemsCopied base low (pushItem heap' address w) (done ++ [v]) (outs ++ [out])
      (some address) := by
  obtain ⟨hlow, values, hread, hvalues⟩ := h
  have hread' := Heap.grown hgrown hread
  obtain ⟨hlt, -⟩ := List.getElem?_eq_some_iff.mp hread
  have helse : ∀ a, a ≠ address → (pushItem heap' address w)[a]? = heap'[a]? := fun a ha =>
    List.getElem?_modify_ne _ _ (Ne.symm ha)
  refine ⟨hlow, values ++ [w], getElem?_pushItem hread', DenotesItems.snoc ?_ ?_⟩
  · -- what was read before does not reach the copy
    refine hvalues.transport fun a c ha hc => ⟨ha, ?_⟩
    rw [helse a (by omega)]
    exact Heap.grown hgrown hc
  · -- neither does what was read just now
    refine hw.transport fun a c ha hc => ⟨by omega, ?_⟩
    rw [helse a (by omega)]
    exact hc

/-- A copy that starts holds what was passed and the first item that is another one. -/
theorem ItemsCopied.start {base low : ℕ} {heap heap' : Heap} {done : List Json}
    {before : List Value} {out : Json} {w : Value} {v : Json} (hlow : low ≤ heap.length) (hgrown : heap <+: heap')
    (hbefore : DenotesItems heap (· < base) done before)
    (hw : Denotes heap' (fun a => a < base ∨ heap.length ≤ a) out w) :
    ItemsCopied base low (pushItem (heap' ++ [.array before]) heap'.length w) (done ++ [v])
      (done ++ [out]) (some heap'.length) := by
  have hlen := hgrown.length_le
  have hpush : pushItem (heap' ++ [.array before]) heap'.length w =
      heap' ++ [.array (before ++ [w])] := modify_last _ _ _
  rw [hpush]
  refine ⟨by omega, before ++ [w], Heap.allocated _ _, DenotesItems.snoc ?_ ?_⟩
  · refine hbefore.transport fun a c ha hc => ⟨.inl ha, ?_⟩
    exact Heap.grown (hgrown.trans (List.prefix_append _ _)) hc
  · refine hw.transport fun a c ha hc => ⟨?_, Heap.grown (List.prefix_append _ _) hc⟩
    obtain ⟨hlt, -⟩ := List.getElem?_eq_some_iff.mp hc
    omega

/-- What lies below what a walk was given lies there after any of its steps. -/
theorem kept_below {base : ℕ} {first heap heap' : Heap} (hbase : base ≤ first.length)
    (h : first <+: heap) (h' : first <+: heap') (a : ℕ) (c : Container) (ha : a < base)
    (hread : heap[a]? = some c) : a < base ∧ heap'[a]? = some c := by
  have hlt : a < first.length := by omega
  obtain ⟨more, rfl⟩ := h
  obtain ⟨more', rfl⟩ := h'
  rw [List.getElem?_append_left hlt] at hread ⊢
  exact ⟨ha, hread⟩

section ItemSteps

variable {read : Value → Heap → Option (JsonRead × Heap)} {before rest : List Value}
  {value w : Value} {heap heap₁ : Heap}

theorem readItems_refused {copy : Option ℕ} (h : read value heap = some (.refused, heap₁)) :
    readItems read before copy (value :: rest) heap = some (.refused, heap₁) := by
  unfold readItems
  rw [h]
  rfl

theorem readItems_pushed {address : ℕ} (h : read value heap = some (.read w, heap₁)) :
    readItems read before (some address) (value :: rest) heap =
      readItems read (before ++ [value]) (some address) rest (pushItem heap₁ address w) := by
  rw [readItems, h]
  rfl

theorem readItems_kept (h : read value heap = some (.read w, heap₁))
    (hsame : w.strictEquals value = true) :
    readItems read before none (value :: rest) heap =
      readItems read (before ++ [value]) none rest heap₁ := by
  rw [readItems, h]
  exact if_pos hsame

theorem readItems_started (h : read value heap = some (.read w, heap₁))
    (hother : ¬ w.strictEquals value = true) :
    readItems read before none (value :: rest) heap =
      readItems read (before ++ [value]) (some heap₁.length) rest
        (pushItem (heap₁ ++ [.array before]) heap₁.length w) := by
  rw [readItems, h]
  exact if_neg hother

end ItemSteps

/-- What the loop over an array comes to, from what it has passed and copied. -/
def ItemsRead (base : ℕ) (first : Heap) (done outs rest : List Json)
    (run : Option (WalkEnd × Heap)) : Prop :=
  ∃ ended heap', run = some (ended, heap') ∧ first <+: heap' ∧
    (jsonItemsSchema rest = none → ended = .refused) ∧
    ∀ outs', jsonItemsSchema rest = some outs' → ∃ copy', ended = .done copy' ∧
      ItemsCopied base first.length heap' (done ++ rest) (outs ++ outs') copy'

/-- An accepted element, and then the rest. -/
theorem ItemsRead.cons {base : ℕ} {first : Heap} {done outs rest : List Json} {v out : Json}
    {run : Option (WalkEnd × Heap)} (hschema : jsonSchema v = some out)
    (h : ItemsRead base first (done ++ [v]) (outs ++ [out]) rest run) :
    ItemsRead base first done outs (v :: rest) run := by
  obtain ⟨ended, heap', hrun, hfirst, hrefused, haccepted⟩ := h
  refine ⟨ended, heap', hrun, hfirst, fun hnone => hrefused ?_, fun outs' houts => ?_⟩
  · unfold jsonItemsSchema at hnone
    rw [hschema] at hnone
    cases hitems : jsonItemsSchema rest with
    | none => rfl
    | some items =>
        rw [hitems] at hnone
        cases hnone
  · obtain ⟨v', rest', hv', hrest', rfl⟩ := jsonItemsSchema_cons houts
    rw [hschema] at hv'
    cases hv'
    obtain ⟨copy', hended, hcopied⟩ := haccepted rest' hrest'
    refine ⟨copy', hended, ?_⟩
    simpa using hcopied

/-- **The loop over an array** reads its elements as the schema does, and copies them. -/
theorem readItems_spec {read : Value → Heap → Option (JsonRead × Heap)} {base : ℕ} {first : Heap}
    (hbase : base ≤ first.length) {rest : List Json} (hread : ∀ v ∈ rest, ReadsWell base read v) :
    ∀ {done outs : List Json} {before values : List Value} {copy : Option ℕ} {heap : Heap},
      first <+: heap → DenotesItems heap (· < base) done before →
      DenotesItems heap (· < base) rest values →
      ItemsCopied base first.length heap done outs copy →
      ItemsRead base first done outs rest (readItems read before copy values heap) := by
  induction rest with
  | nil =>
      intro done outs before values copy heap hfirst _ hvalues hcopied
      rw [show values = [] from hvalues]
      refine ⟨.done copy, heap, rfl, hfirst, nofun, fun outs' houts => ⟨copy, rfl, ?_⟩⟩
      cases houts
      rwa [List.append_nil, List.append_nil]
  | cons v rest ih =>
      intro done outs before values copy heap hfirst hbefore hvalues hcopied
      obtain ⟨value, others, rfl, hv, hothers⟩ := hvalues
      have hlen := hfirst.length_le
      obtain ⟨item, heap₁, hitem, hreads⟩ :=
        hread v List.mem_cons_self value heap (by omega) hv
      have hfirst₁ := hfirst.trans hreads.grown
      cases hschema : jsonSchema v with
      | none =>
          -- the element is refused, and with it the array
          rw [hreads.refused hschema] at hitem
          rw [readItems_refused hitem]
          refine ⟨.refused, heap₁, rfl, hfirst₁, fun _ => rfl, fun outs' houts => ?_⟩
          obtain ⟨v', _, hv', -⟩ := jsonItemsSchema_cons houts
          rw [hschema] at hv'
          cases hv'
      | some out =>
          obtain ⟨w, rfl, hw, hsame⟩ := hreads.accepted out hschema
          refine ItemsRead.cons hschema ?_
          have hrest := @ih fun u hu => hread u (List.mem_cons_of_mem _ hu)
          -- whatever the step left, what it was given is still there
          have hstep : ∀ {copy₂ : Option ℕ} {heap₂ : Heap}, first <+: heap₂ →
              ItemsCopied base first.length heap₂ (done ++ [v]) (outs ++ [out]) copy₂ →
              ItemsRead base first (done ++ [v]) (outs ++ [out]) rest
                (readItems read (before ++ [value]) copy₂ others heap₂) := by
            intro copy₂ heap₂ hfirst₂ hcopied₂
            have hkept := kept_below hbase hfirst hfirst₂
            exact hrest hfirst₂ ((hbefore.transport hkept).snoc (hv.transport hkept))
              (hothers.transport hkept) hcopied₂
          cases copy with
          | some address =>
              rw [readItems_pushed hitem]
              exact hstep (prefix_modify hfirst₁ hcopied.1) (hcopied.push hbase hreads.grown hw)
          | none =>
              have houts : outs = done := hcopied
              subst houts
              by_cases hequal : w.strictEquals value = true
              · obtain ⟨rfl, rfl⟩ := hsame hequal
                rw [readItems_kept hitem hequal]
                exact hstep hfirst₁ rfl
              · rw [readItems_started hitem hequal]
                refine hstep (prefix_modify (hfirst₁.trans (List.prefix_append _ _)) ?_) ?_
                · exact hfirst₁.length_le
                · exact ItemsCopied.start hlen hreads.grown hbefore hw

/-! ## The loop over a record -/

/-- The entry a key leaves, if it leaves one. -/
def keptEntry (key : JsString) (out : Json) : List (JsString × Json) :=
  if key = "__proto__" then [] else [(key, out)]

/-- What the loop over a record has copied. No key is dropped while nothing has been copied. -/
def EntriesCopied (base low : ℕ) (heap : Heap) (done outs : List (JsString × Json)) :
    Option ℕ → Prop
  | none => outs = done ∧ ∀ k ∈ done.map Prod.fst, k ≠ "__proto__"
  | some address => low ≤ address ∧ (∀ k ∈ outs.map Prod.fst, k ∈ done.map Prod.fst) ∧
      ∃ own, heap[address]? = some (.object own [] false) ∧
        DenotesEntries heap (fun a => a < base ∨ (low ≤ a ∧ a ≠ address)) outs own

/-- One key more, assigned on the copy. -/
theorem EntriesCopied.assign {base low : ℕ} {heap heap' : Heap} {done outs : List (JsString × Json)}
    {rest : List (JsString × Json)} {address : ℕ} {k : JsString} {v out : Json} {w : Value}
    (h : EntriesCopied base low heap done outs (some address)) (hbase : base ≤ low)
    (hgrown : heap <+: heap') (hordered : PropertyOrdered (done ++ (k, v) :: rest))
    (hproto : k ≠ "__proto__") (hw : Denotes heap' (fun a => a < base ∨ heap.length ≤ a) out w) :
    EntriesCopied base low (assignKey heap' address k w) (done ++ [(k, v)])
      (outs ++ keptEntry k out) (some address) := by
  obtain ⟨hlow, hkeys, own, hread, hown⟩ := h
  have hread' := Heap.grown hgrown hread
  obtain ⟨hlt, -⟩ := List.getElem?_eq_some_iff.mp hread
  have helse : ∀ a, a ≠ address → (assignKey heap' address k w)[a]? = heap'[a]? := fun a ha =>
    List.getElem?_modify_ne _ _ (Ne.symm ha)
  -- the keys of the copy are among those passed, so the new one comes last
  have hlast : assignProperty own k w = own ++ [(k, w)] := by
    refine assignProperty_last hproto fun p hp => hordered.before p.1 (hkeys p.1 ?_)
    rw [← hown.keys]
    exact List.mem_map_of_mem hp
  have hassign := @getElem?_assignKey _ _ _ k w hread'
  rw [hlast] at hassign
  rw [show keptEntry k out = [(k, out)] from if_neg hproto]
  refine ⟨hlow, fun key hkey => ?_, own ++ [(k, w)], hassign, DenotesEntries.snoc ?_ ?_⟩
  · rw [List.map_append, List.mem_append] at hkey ⊢
    exact hkey.imp (hkeys key) id
  · refine hown.transport fun a c ha hc => ⟨ha, ?_⟩
    rw [helse a (by omega)]
    exact Heap.grown hgrown hc
  · refine hw.transport fun a c ha hc => ⟨by omega, ?_⟩
    rw [helse a (by omega)]
    exact hc

/-- A dropped key leaves the copy as it is. -/
theorem EntriesCopied.drop {base low : ℕ} {heap heap' : Heap} {done outs : List (JsString × Json)}
    {address : ℕ} {k : JsString} {v out : Json}
    (h : EntriesCopied base low heap done outs (some address)) (hgrown : heap <+: heap')
    (hproto : k = "__proto__") :
    EntriesCopied base low heap' (done ++ [(k, v)]) (outs ++ keptEntry k out)
      (some address) := by
  obtain ⟨hlow, hkeys, own, hread, hown⟩ := h
  rw [show keptEntry k out = [] from if_pos hproto, List.append_nil]
  refine ⟨hlow, fun key hkey => ?_, own, Heap.grown hgrown hread, ?_⟩
  · rw [List.map_append, List.mem_append]
    exact .inl (hkeys key hkey)
  · exact hown.transport fun a c ha hc => ⟨ha, Heap.grown hgrown hc⟩

/-- A copy that starts holds the keys passed, and the first one whose value is another. -/
theorem EntriesCopied.start {base low : ℕ} {heap heap' : Heap} {done : List (JsString × Json)}
    {before : Properties} {rest : List (JsString × Json)} {k : JsString} {v out : Json} {w : Value}
    (hlow : low ≤ heap.length) (hgrown : heap <+: heap')
    (hbefore : DenotesEntries heap (· < base) done before)
    (hordered : PropertyOrdered (done ++ (k, v) :: rest))
    (hkeys : ∀ k ∈ done.map Prod.fst, k ≠ "__proto__")
    (hw : Denotes heap' (fun a => a < base ∨ heap.length ≤ a) out w) {started : Heap}
    (hstarted : started = if k = "__proto__" then copyKeys before heap'
      else assignKey (copyKeys before heap') heap'.length k w) :
    heap' <+: started ∧ EntriesCopied base low started (done ++ [(k, v)])
      (done ++ keptEntry k out) (some heap'.length) := by
  have hlen := hgrown.length_le
  have hcopy : copyKeys before heap' = heap' ++ [.object before [] false] := by
    refine copyKeys_eq ?_ (by rwa [hbefore.keys])
    refine propertyOrdered_of_keys (hbefore.keys) ?_
    exact (List.pairwise_append.mp hordered).1
  have hold : DenotesEntries heap' (fun a => a < base ∨ (low ≤ a ∧ a ≠ heap'.length)) done before :=
    hbefore.transport fun a c ha hc => ⟨.inl ha, Heap.grown hgrown hc⟩
  have hnew : Denotes heap' (fun a => a < base ∨ (low ≤ a ∧ a ≠ heap'.length)) out w := by
    refine hw.transport fun a c ha hc => ⟨?_, hc⟩
    obtain ⟨hlt, -⟩ := List.getElem?_eq_some_iff.mp hc
    omega
  have hgrow : ∀ {c : Container} (a : ℕ) (d : Container),
      (a < base ∨ (low ≤ a ∧ a ≠ heap'.length)) → heap'[a]? = some d →
      (a < base ∨ (low ≤ a ∧ a ≠ heap'.length)) ∧ (heap' ++ [c])[a]? = some d :=
    fun a d ha hd => ⟨ha, Heap.grown (List.prefix_append _ _) hd⟩
  rw [hcopy] at hstarted
  by_cases hproto : k = "__proto__"
  · rw [if_pos hproto] at hstarted
    rw [hstarted, show keptEntry k out = [] from if_pos hproto, List.append_nil]
    refine ⟨List.prefix_append _ _, by omega, fun key hkey => ?_, before, Heap.allocated _ _, hold.transport hgrow⟩
    rw [List.map_append, List.mem_append]
    exact .inl hkey
  · have hlast : assignProperty before k w = before ++ [(k, w)] := by
      refine assignProperty_last hproto fun p hp => hordered.before p.1 ?_
      rw [← hbefore.keys]
      exact List.mem_map_of_mem hp
    have hassign : assignKey (heap' ++ [.object before [] false]) heap'.length k w =
        heap' ++ [.object (before ++ [(k, w)]) [] false] := by
      unfold assignKey
      rw [modify_last]
      show heap' ++ [.object (assignProperty before k w) [] false] = _
      rw [hlast]
    rw [if_neg hproto, hassign] at hstarted
    rw [hstarted, show keptEntry k out = [(k, out)] from if_neg hproto]
    refine ⟨List.prefix_append _ _, by omega, fun key hkey => ?_, before ++ [(k, w)], Heap.allocated _ _,
      (hold.transport hgrow).snoc (hnew.transport hgrow)⟩
    rw [List.map_append, List.mem_append] at hkey ⊢
    exact hkey.imp id id

section EntrySteps

variable {read : Value → Heap → Option (JsonRead × Heap)} {before rest : Properties}
  {k : JsString} {value w : Value} {heap heap₁ : Heap}

theorem readEntries_refused {copy : Option ℕ} (h : read value heap = some (.refused, heap₁)) :
    readEntries read before copy ((k, value) :: rest) heap = some (.refused, heap₁) := by
  unfold readEntries
  rw [h]
  rfl

theorem readEntries_copying {address : ℕ} (h : read value heap = some (.read w, heap₁)) :
    readEntries read before (some address) ((k, value) :: rest) heap =
      readEntries read (before ++ [(k, value)]) (some address) rest
        (if k = "__proto__" then heap₁ else assignKey heap₁ address k w) := by
  rw [readEntries, h]
  show (if _ then _ else _) = _
  split <;> rfl

theorem readEntries_kept (h : read value heap = some (.read w, heap₁))
    (hproto : k ≠ "__proto__") (hsame : w.strictEquals value = true) :
    readEntries read before none ((k, value) :: rest) heap =
      readEntries read (before ++ [(k, value)]) none rest heap₁ := by
  rw [readEntries, h]
  show (if _ then _ else if _ then _ else _) = _
  rw [if_neg hproto, if_pos hsame]

theorem readEntries_started (h : read value heap = some (.read w, heap₁))
    (hother : k = "__proto__" ∨ ¬ w.strictEquals value = true) :
    readEntries read before none ((k, value) :: rest) heap =
      readEntries read (before ++ [(k, value)]) (some heap₁.length) rest
        (if k = "__proto__" then copyKeys before heap₁
          else assignKey (copyKeys before heap₁) heap₁.length k w) := by
  rw [readEntries, h]
  show (if _ then _ else if _ then _ else _) = _
  by_cases hproto : k = "__proto__"
  · rw [if_pos hproto, if_pos hproto]
  · rw [if_neg hproto, if_neg hproto, if_neg (hother.resolve_left hproto)]

end EntrySteps

/-- What the loop over a record comes to, from what it has passed and copied. -/
def EntriesRead (base : ℕ) (first : Heap) (done outs rest : List (JsString × Json))
    (run : Option (WalkEnd × Heap)) : Prop :=
  ∃ ended heap', run = some (ended, heap') ∧ first <+: heap' ∧
    (jsonEntriesSchema rest = none → ended = .refused) ∧
    ∀ outs', jsonEntriesSchema rest = some outs' → ∃ copy', ended = .done copy' ∧
      EntriesCopied base first.length heap' (done ++ rest) (outs ++ outs') copy'

/-- An accepted value, and then the rest. -/
theorem EntriesRead.cons {base : ℕ} {first : Heap} {done outs rest : List (JsString × Json)}
    {k : JsString} {v out : Json} {run : Option (WalkEnd × Heap)}
    (hschema : jsonSchema v = some out)
    (h : EntriesRead base first (done ++ [(k, v)]) (outs ++ keptEntry k out) rest run) :
    EntriesRead base first done outs ((k, v) :: rest) run := by
  obtain ⟨ended, heap', hrun, hfirst, hrefused, haccepted⟩ := h
  refine ⟨ended, heap', hrun, hfirst, fun hnone => hrefused ?_, fun outs' houts => ?_⟩
  · unfold jsonEntriesSchema at hnone
    rw [hschema] at hnone
    cases hentries : jsonEntriesSchema rest with
    | none => rfl
    | some entries =>
        rw [hentries] at hnone
        cases hnone
  · obtain ⟨v', rest', hv', hrest', rfl⟩ := jsonEntriesSchema_cons houts
    rw [hschema] at hv'
    cases hv'
    obtain ⟨copy', hended, hcopied⟩ := haccepted rest' hrest'
    refine ⟨copy', hended, ?_⟩
    have hsplit : outs ++ (if k = "__proto__" then rest' else (k, out) :: rest') =
        outs ++ keptEntry k out ++ rest' := by
      unfold keptEntry
      split <;> simp
    rw [hsplit, show done ++ (k, v) :: rest = done ++ [(k, v)] ++ rest by simp]
    exact hcopied

/-- **The loop over a record** reads its values as the schema does, drops what the schema drops and
copies the rest. -/
theorem readEntries_spec {read : Value → Heap → Option (JsonRead × Heap)} {base : ℕ} {first : Heap}
    (hbase : base ≤ first.length) {rest : List (JsString × Json)}
    (hread : ∀ e ∈ rest, ReadsWell base read e.2) :
    ∀ {done outs : List (JsString × Json)} {before own : Properties} {copy : Option ℕ}
      {heap : Heap}, first <+: heap → PropertyOrdered (done ++ rest) →
      DenotesEntries heap (· < base) done before → DenotesEntries heap (· < base) rest own →
      EntriesCopied base first.length heap done outs copy →
      EntriesRead base first done outs rest (readEntries read before copy own heap) := by
  induction rest with
  | nil =>
      intro done outs before own copy heap hfirst _ _ hown hcopied
      rw [show own = [] from hown]
      refine ⟨.done copy, heap, rfl, hfirst, nofun, fun outs' houts => ⟨copy, rfl, ?_⟩⟩
      cases houts
      rwa [List.append_nil, List.append_nil]
  | cons entry rest ih =>
      obtain ⟨k, v⟩ := entry
      intro done outs before own copy heap hfirst hordered hbefore hown hcopied
      obtain ⟨value, others, rfl, hv, hothers⟩ := hown
      have hlen := hfirst.length_le
      obtain ⟨item, heap₁, hitem, hreads⟩ :=
        hread (k, v) List.mem_cons_self value heap (by omega) hv
      have hfirst₁ := hfirst.trans hreads.grown
      cases hschema : jsonSchema v with
      | none =>
          -- the value is refused, under a dropped key too
          rw [hreads.refused hschema] at hitem
          rw [readEntries_refused hitem]
          refine ⟨.refused, heap₁, rfl, hfirst₁, fun _ => rfl, fun outs' houts => ?_⟩
          obtain ⟨v', _, hv', -⟩ := jsonEntriesSchema_cons houts
          rw [hschema] at hv'
          cases hv'
      | some out =>
          obtain ⟨w, rfl, hw, hsame⟩ := hreads.accepted out hschema
          refine EntriesRead.cons hschema ?_
          have hrest := @ih fun u hu => hread u (List.mem_cons_of_mem _ hu)
          have hstep : ∀ {copy₂ : Option ℕ} {heap₂ : Heap}, first <+: heap₂ →
              EntriesCopied base first.length heap₂ (done ++ [(k, v)]) (outs ++ keptEntry k out)
                copy₂ →
              EntriesRead base first (done ++ [(k, v)]) (outs ++ keptEntry k out) rest
                (readEntries read (before ++ [(k, value)]) copy₂ others heap₂) := by
            intro copy₂ heap₂ hfirst₂ hcopied₂
            have hkept := kept_below hbase hfirst hfirst₂
            refine hrest hfirst₂ ?_ ((hbefore.transport hkept).snoc (hv.transport hkept))
              (hothers.transport hkept) hcopied₂
            rwa [List.append_assoc]
          cases copy with
          | some address =>
              rw [readEntries_copying hitem]
              by_cases hproto : k = "__proto__"
              · rw [if_pos hproto]
                exact hstep hfirst₁ (hcopied.drop hreads.grown hproto)
              · rw [if_neg hproto]
                exact hstep (prefix_modify hfirst₁ hcopied.1)
                  (hcopied.assign hbase hreads.grown hordered hproto hw)
          | none =>
              obtain ⟨houts, hkeys⟩ : outs = done ∧ ∀ k ∈ done.map Prod.fst, k ≠ "__proto__" := hcopied
              subst houts
              by_cases hequal : k ≠ "__proto__" ∧ w.strictEquals value = true
              · obtain ⟨rfl, rfl⟩ := hsame hequal.2
                rw [readEntries_kept hitem hequal.1 hequal.2]
                refine hstep hfirst₁ ⟨?_, fun key hkey => ?_⟩
                · rw [show keptEntry k out = [(k, out)] from if_neg hequal.1]
                · rw [List.map_append, List.mem_append] at hkey
                  rcases hkey with hkey | hkey
                  · exact hkeys key hkey
                  · rw [List.mem_singleton.mp hkey]
                    exact hequal.1
              · have hother : k = "__proto__" ∨ ¬ w.strictEquals value = true := by
                  rwa [Classical.not_and_iff_not_or_not, not_ne_iff] at hequal
                obtain ⟨hgrown, hstarted⟩ := EntriesCopied.start (v := v) hlen hreads.grown hbefore
                  hordered hkeys hw rfl
                rw [readEntries_started hitem hother]
                exact hstep (hfirst₁.trans hgrown) hstarted

/-! ## The walk reads as the schema -/

mutual

/-- How deep the containers of a tree are nested. -/
def nesting : Json → ℕ
  | .arr items => nestingItems items + 1
  | .obj entries => nestingEntries entries + 1
  | _ => 1

/-- The deepest of the items. -/
def nestingItems : List Json → ℕ
  | [] => 0
  | v :: rest => max (nesting v) (nestingItems rest)

/-- The deepest of the values. -/
def nestingEntries : List (JsString × Json) → ℕ
  | [] => 0
  | (_, v) :: rest => max (nesting v) (nestingEntries rest)

end

theorem nesting_le_items {v : Json} {items : List Json} (h : v ∈ items) :
    nesting v ≤ nestingItems items := by
  induction items with
  | nil => exact absurd h List.not_mem_nil
  | cons w rest ih =>
      unfold nestingItems
      rcases List.mem_cons.mp h with rfl | h
      · exact le_max_left _ _
      · exact (ih h).trans (le_max_right _ _)

theorem nesting_le_entries {e : JsString × Json} {entries : List (JsString × Json)}
    (h : e ∈ entries) : nesting e.2 ≤ nestingEntries entries := by
  induction entries with
  | nil => exact absurd h List.not_mem_nil
  | cons first rest ih =>
      obtain ⟨k, v⟩ := first
      unfold nestingEntries
      rcases List.mem_cons.mp h with rfl | h
      · exact le_max_left _ _
      · exact (ih h).trans (le_max_right _ _)

theorem depth_of_nesting {v : Json} {stack : ℕ} (h : nesting v ≤ stack) :
    ∃ depth, stack = depth + 1 := by
  have hpos : 1 ≤ nesting v := by
    cases v <;> simp [nesting]
  exact ⟨stack - 1, by omega⟩

/-- No property of a parsed record is a function. -/
theorem not_isFunction_getProperty {heap : Heap} {S : ℕ → Prop}
    {entries : List (JsString × Json)} {own : Properties} (h : DenotesEntries heap S entries own)
    (key : JsString) : isFunction (getProperty own [] key) = false := by
  unfold getProperty
  induction entries generalizing own with
  | nil =>
      rw [show own = [] from h]
      rfl
  | cons entry rest ih =>
      obtain ⟨value, others, rfl, hv, hrest⟩ := h
      rw [List.lookup_cons]
      split
      · -- the value under the key denotes a tree
        show isFunction value = false
        cases value with
        | function identity =>
            cases hentry : entry.2 <;> rw [hentry] at hv <;> first
              | (obtain ⟨_, _, hne, -⟩ := hv; cases hne)
              | cases hv
        | _ => rfl
      · exact ih hrest

theorem isRecordLike_of_denotes {heap : Heap} {S : ℕ → Prop} {entries : List (JsString × Json)}
    {own : Properties} {address : ℕ} (hread : heap[address]? = some (.object own [] false))
    (h : DenotesEntries heap S entries own) : isRecordLike (.ref address) heap = true := by
  unfold isRecordLike
  simp only [hread, not_isFunction_getProperty h]
  rfl

/-- A container handed back is the one given, and a copy is another one. -/
theorem readsAs_walkResult {base address : ℕ} {heap heap' : Heap} {v : Json} {ended : WalkEnd}
    (haddress : address < base) (hbase : base ≤ heap.length) (hgrown : heap <+: heap')
    (hv : Denotes heap (· < base) v (.ref address))
    (hrefused : jsonSchema v = none → ended = .refused)
    (haccepted : ∀ out, jsonSchema v = some out → ∃ copy, ended = .done copy ∧
      (copy = none → out = v) ∧ ∀ a, copy = some a → heap.length ≤ a ∧
        Denotes heap' (fun a => a < base ∨ heap.length ≤ a) out (.ref a)) :
    ReadsAs base heap v (.ref address) (walkResult (.ref address) ended) heap' where
  grown := hgrown
  refused h := by
    rw [hrefused h]
    rfl
  accepted out hout := by
    obtain ⟨copy, rfl, hnone, hsome⟩ := haccepted out hout
    cases copy with
    | none =>
        obtain rfl := hnone rfl
        refine ⟨_, rfl, hv.transport fun a c ha hc => ⟨.inl ha, Heap.grown hgrown hc⟩, ?_⟩
        exact fun _ => ⟨rfl, rfl⟩
    | some a =>
        obtain ⟨hlow, hdenotes⟩ := hsome a rfl
        refine ⟨_, rfl, hdenotes, fun hsame => ?_⟩
        have heq : Value.ref a = Value.ref address := of_decide_eq_true hsame
        cases heq
        omega

/-- **The walk, in either mode, reads a parsed tree as its schema does**, and writes only to what it
has allocated itself. -/
theorem readJsonValue_spec (fresh : Bool) (v : Json) : ∀ {stack : ℕ}, KeysOrdered v →
    nesting v ≤ stack → ∀ base, ReadsWell base (readJsonValue fresh stack) v := by
  have hleaf : ∀ {base : ℕ} {v : Json} {value : Value} {heap : Heap},
      Denotes heap (· < base) v value → jsonSchema v = some v →
      ReadsAs base heap v value (.read value) heap := by
    intro base v value heap hv hschema
    refine ⟨List.prefix_rfl, fun h => ?_, fun out hout => ?_⟩
    · rw [hschema] at h
      cases h
    · rw [hschema] at hout
      cases hout
      exact ⟨value, rfl, hv.transport fun a c ha hc => ⟨.inl ha, hc⟩, fun _ => ⟨rfl, rfl⟩⟩
  induction v with
  | null =>
      intro stack _ hstack base value heap _ hv
      obtain ⟨depth, rfl⟩ := depth_of_nesting hstack
      obtain rfl : value = .null := hv
      exact ⟨_, _, rfl, hleaf (show Denotes heap _ .null .null from rfl) rfl⟩
  | bool b =>
      intro stack _ hstack base value heap _ hv
      obtain ⟨depth, rfl⟩ := depth_of_nesting hstack
      obtain rfl : value = .bool b := hv
      exact ⟨_, _, rfl, hleaf (show Denotes heap _ (.bool b) (.bool b) from rfl) rfl⟩
  | num x =>
      intro stack _ hstack base value heap _ hv
      obtain ⟨depth, rfl⟩ := depth_of_nesting hstack
      obtain rfl : value = .num x := hv
      cases x with
      | finite q => exact ⟨_, _, rfl, hleaf (show Denotes heap _ (.num _) (.num _) from rfl) rfl⟩
      | negZero => exact ⟨_, _, rfl, hleaf (show Denotes heap _ (.num _) (.num _) from rfl) rfl⟩
      | _ => exact ⟨_, _, rfl, List.prefix_rfl, fun _ => rfl, nofun⟩
  | str s =>
      intro stack _ hstack base value heap _ hv
      obtain ⟨depth, rfl⟩ := depth_of_nesting hstack
      obtain rfl : value = .str s := hv
      exact ⟨_, _, rfl, hleaf (show Denotes heap _ (.str s) (.str s) from rfl) rfl⟩
  | arr items ih =>
      intro stack hordered hstack base value heap hbase hv
      obtain ⟨depth, rfl⟩ := depth_of_nesting hstack
      obtain ⟨address, values, rfl, haddress, hread, hvalues⟩ := id hv
      have hitems : ∀ u ∈ items, ReadsWell base (readJsonValue fresh depth) u := by
        intro u hu
        have hdeep := nesting_le_items hu
        have hu' : KeysOrdered u := by
          cases hordered with
          | arr h => exact h u hu
        exact ih u hu hu' (by simp [nesting] at hstack; omega) base
      -- the loop starts with no copy, or with an empty one of its own
      have hstart : heap <+: (startCopy fresh (.array []) heap).2 ∧
          ItemsCopied base heap.length (startCopy fresh (.array []) heap).2 [] []
            (startCopy fresh (.array []) heap).1 := by
        cases fresh with
        | true => exact ⟨List.prefix_rfl, rfl⟩
        | false => exact ⟨List.prefix_append _ _, le_rfl, [], Heap.allocated _ _, rfl⟩
      obtain ⟨hfirst, hcopied⟩ := hstart
      have hkept := kept_below hbase List.prefix_rfl hfirst
      obtain ⟨ended, heap', hrun, hgrown, hrefused, haccepted⟩ :=
        @readItems_spec _ _ _ hbase _ hitems [] [] [] values _ _ hfirst rfl
          (hvalues.transport hkept) hcopied
      refine ⟨walkResult (.ref address) ended, heap', ?_, ?_⟩
      · unfold readJsonValue
        simp only [hread]
        rw [hrun]
        rfl
      · refine readsAs_walkResult haddress hbase hgrown hv (fun h => hrefused ?_) fun out hout => ?_
        · exact Option.map_eq_none_iff.mp h
        · obtain ⟨outs, houts, rfl⟩ := Option.map_eq_some_iff.mp hout
          obtain ⟨copy, hended, hcopy⟩ := haccepted outs houts
          refine ⟨copy, hended, fun hnone => ?_, fun a ha => ?_⟩
          · subst hnone
            exact congrArg Json.arr hcopy
          · subst ha
            obtain ⟨hlow, ws, hws, hdenotes⟩ := hcopy
            refine ⟨hlow, a, ws, rfl, .inr hlow, hws, ?_⟩
            exact hdenotes.transport fun b c hb hc => ⟨hb.imp id And.left, hc⟩
  | obj entries ih =>
      intro stack hordered hstack base value heap hbase hv
      obtain ⟨depth, rfl⟩ := depth_of_nesting hstack
      obtain ⟨address, own, rfl, haddress, hread, hown⟩ := id hv
      have hkeys : PropertyOrdered entries ∧ ∀ e ∈ entries, KeysOrdered e.2 := by
        cases hordered with
        | obj h h' => exact ⟨h, h'⟩
      have hentries : ∀ e ∈ entries, ReadsWell base (readJsonValue fresh depth) e.2 := by
        intro e he
        have hdeep := nesting_le_entries he
        exact ih e he (hkeys.2 e he) (by simp [nesting] at hstack; omega) base
      have hstart : heap <+: (startCopy fresh (.object [] [] false) heap).2 ∧
          EntriesCopied base heap.length (startCopy fresh (.object [] [] false) heap).2 [] []
            (startCopy fresh (.object [] [] false) heap).1 := by
        cases fresh with
        | true => exact ⟨List.prefix_rfl, rfl, by simp⟩
        | false =>
            exact ⟨List.prefix_append _ _, le_rfl, fun k hk => hk, [], Heap.allocated _ _, rfl⟩
      obtain ⟨hfirst, hcopied⟩ := hstart
      have hkept := kept_below hbase List.prefix_rfl hfirst
      obtain ⟨ended, heap', hrun, hgrown, hrefused, haccepted⟩ :=
        @readEntries_spec _ _ _ hbase _ hentries [] [] [] own _ _ hfirst hkeys.1 rfl
          (hown.transport hkept) hcopied
      have hall : (if fresh then own else enumerableProperties own []) = own := by
        cases fresh with
        | true => rfl
        | false => exact List.append_nil own
      refine ⟨walkResult (.ref address) ended, heap', ?_, ?_⟩
      · unfold readJsonValue
        simp only [hread, isRecordLike_of_denotes hread hown, hall]
        show (readEntries _ _ _ _ _).map _ = _
        rw [hrun]
        rfl
      · refine readsAs_walkResult haddress hbase hgrown hv (fun h => hrefused ?_) fun out hout => ?_
        · exact Option.map_eq_none_iff.mp h
        · obtain ⟨outs, houts, rfl⟩ := Option.map_eq_some_iff.mp hout
          obtain ⟨copy, hended, hcopy⟩ := haccepted outs houts
          refine ⟨copy, hended, fun hnone => ?_, fun a ha => ?_⟩
          · subst hnone
            exact congrArg Json.obj hcopy.1
          · subst ha
            obtain ⟨hlow, -, ws, hws, hdenotes⟩ := hcopy
            refine ⟨hlow, a, ws, rfl, .inr hlow, hws, ?_⟩
            exact hdenotes.transport fun b c hb hc => ⟨hb.imp id And.left, hc⟩

/-! ## The reference -/

mutual

/-- No number anywhere is infinite or not a number, a dropped value's included. -/
def allFinite : Json → Bool
  | .num (.finite _) | .num .negZero => true
  | .num _ => false
  | .arr items => allFiniteItems items
  | .obj entries => allFiniteEntries entries
  | _ => true

/-- Every item is finite throughout. -/
def allFiniteItems : List Json → Bool
  | [] => true
  | v :: rest => allFinite v && allFiniteItems rest

/-- Every value is finite throughout. -/
def allFiniteEntries : List (JsString × Json) → Bool
  | [] => true
  | (_, v) :: rest => allFinite v && allFiniteEntries rest

end

mutual

/-- The tree without its `__proto__` keys, at every depth. -/
def dropProto : Json → Json
  | .arr items => .arr (dropProtoItems items)
  | .obj entries => .obj (dropProtoEntries entries)
  | v => v

/-- The items, each without its `__proto__` keys. -/
def dropProtoItems : List Json → List Json
  | [] => []
  | v :: rest => dropProto v :: dropProtoItems rest

/-- The entries but those under `__proto__`, their values likewise. -/
def dropProtoEntries : List (JsString × Json) → List (JsString × Json)
  | [] => []
  | (k, v) :: rest =>
    if k = "__proto__" then dropProtoEntries rest else (k, dropProto v) :: dropProtoEntries rest

end

/-- The reference: refuse at a number that is not finite, and drop otherwise. -/
def referenceRead (v : Json) : Option Json := if allFinite v then some (dropProto v) else none

/-- **The schema is the reference.** -/
theorem jsonSchema_eq_referenceRead (v : Json) : jsonSchema v = referenceRead v := by
  induction v with
  | null => rfl
  | bool b => rfl
  | num x => cases x <;> rfl
  | str s => rfl
  | arr items ih =>
      have hitems : jsonItemsSchema items =
          if allFiniteItems items then some (dropProtoItems items) else none := by
        induction items with
        | nil => rfl
        | cons v rest ihrest =>
            have hv := ih v List.mem_cons_self
            have hrest := ihrest fun u hu => ih u (List.mem_cons_of_mem _ hu)
            unfold referenceRead at hv
            unfold jsonItemsSchema allFiniteItems dropProtoItems
            rw [hv, hrest]
            by_cases hhead : allFinite v = true <;> by_cases htail : allFiniteItems rest = true <;>
              simp [hhead, htail]
      unfold referenceRead jsonSchema allFinite dropProto
      rw [hitems]
      split <;> rfl
  | obj entries ih =>
      have hentries : jsonEntriesSchema entries =
          if allFiniteEntries entries then some (dropProtoEntries entries) else none := by
        induction entries with
        | nil => rfl
        | cons entry rest ihrest =>
            obtain ⟨k, v⟩ := entry
            have hv := ih (k, v) List.mem_cons_self
            have hrest := ihrest fun u hu => ih u (List.mem_cons_of_mem _ hu)
            unfold referenceRead at hv
            unfold jsonEntriesSchema allFiniteEntries dropProtoEntries
            rw [hv, hrest]
            by_cases hhead : allFinite v = true <;>
              by_cases htail : allFiniteEntries rest = true <;> simp [hhead, htail]
      unfold referenceRead jsonSchema allFinite dropProto
      rw [hentries]
      split <;> rfl

/-- A read answers as a reference does: a refusal where it has none, and otherwise a value that
denotes it. -/
structure Answers (reference : Option Json) (item : JsonRead) (heap : Heap) : Prop where
  refused : reference = none → item = .refused
  value : ∀ out, reference = some out → ∃ w, item = .read w ∧ Denotes heap (fun _ => True) out w

theorem ReadsAs.answers {base : ℕ} {heap heap' : Heap} {v : Json} {value : Value} {item : JsonRead}
    (h : ReadsAs base heap v value item heap') : Answers (referenceRead v) item heap' := by
  rw [← jsonSchema_eq_referenceRead]
  refine ⟨h.refused, fun out hout => ?_⟩
  obtain ⟨w, hw, hdenotes, -⟩ := h.accepted out hout
  exact ⟨w, hw, hdenotes.transport fun a c _ hc => ⟨trivial, hc⟩⟩

/-- **The copy-on-write walk equals the reference.** Text that does not parse, or not to an object, is
refused. On any other text the two readers answer as the reference does, and neither changes what the
parser made. -/
theorem parseJsonObject_refines (parse : JsString → Option ParsedJson) (text : JsString)
    (heap : Heap) :
    (parse text = none → ∀ stack, parseJsonObject parse stack text heap = some (.refused, heap)) ∧
    (∀ parsed, parse text = some parsed → (∀ entries, parsed.val ≠ .obj entries) → ∀ stack,
      parseJsonObject parse stack text heap = some (.refused, (build parsed.val heap).2)) ∧
    ∀ parsed entries, parse text = some parsed → parsed.val = .obj entries →
      ∀ stack, nesting parsed.val ≤ stack →
        ∃ item heap₁ item' heap₂,
          parseJsonObject parse stack text heap = some (item, heap₁) ∧
          readJsonObject stack (build parsed.val heap).1 (build parsed.val heap).2 =
            some (item', heap₂) ∧
          Answers (referenceRead parsed.val) item heap₁ ∧
          Answers (referenceRead parsed.val) item' heap₂ ∧
          (build parsed.val heap).2 <+: heap₁ ∧ (build parsed.val heap).2 <+: heap₂ := by
  refine ⟨fun hparse stack => ?_, fun parsed hparse hother stack => ?_, ?_⟩
  · unfold parseJsonObject
    rw [hparse]
  · have hplain : isPlainObject (build parsed.val heap).1 (build parsed.val heap).2 = false := by
      obtain ⟨v, hv⟩ := parsed
      cases v with
      | obj entries => exact absurd rfl (hother entries)
      | arr items =>
          show (match ((buildItems items heap).2 ++ [Container.array (buildItems items heap).1])[
            (buildItems items heap).2.length]? with
            | some (.object ..) => true
            | _ => false) = false
          rw [Heap.allocated]
      | _ => rfl
    unfold parseJsonObject
    rw [hparse]
    show (if (!isPlainObject _ _) = true then _ else _) = _
    rw [hplain]
    rfl
  · rintro ⟨v, hordered⟩ entries hparse hobject stack hstack
    dsimp only at hobject hstack ⊢
    subst hobject
    obtain ⟨-, hdenotes⟩ := build_denotes (.obj entries) heap
    obtain ⟨address, own, hroot, -, hread, hown⟩ := id hdenotes
    -- all that was laid out lies below what the walks allocate
    have hbelow : Denotes (build (.obj entries) heap).2 (· < (build (.obj entries) heap).2.length)
        (.obj entries) (build (.obj entries) heap).1 :=
      hdenotes.transport fun a c _ hc => ⟨(List.getElem?_eq_some_iff.mp hc).1, hc⟩
    obtain ⟨item, heap₁, hrun, hreads⟩ :=
      readJsonValue_spec true _ hordered hstack _ _ _ le_rfl hbelow
    obtain ⟨item', heap₂, hrun', hreads'⟩ :=
      readJsonValue_spec false _ hordered hstack _ _ _ le_rfl hbelow
    refine ⟨item, heap₁, item', heap₂, ?_, ?_, hreads.answers, hreads'.answers, hreads.grown,
      hreads'.grown⟩
    · unfold parseJsonObject
      rw [hparse]
      have hplain : isPlainObject (build (.obj entries) heap).1 (build (.obj entries) heap).2 =
          true := by
        unfold isPlainObject
        simp only [hroot, hread]
      show (if (!isPlainObject _ _) = true then _ else _) = _
      rw [hplain]
      exact hrun
    · unfold readJsonObject
      rw [hroot] at hrun' ⊢
      rw [isRecordLike_of_denotes hread hown]
      exact hrun'

end SharedOS.Core
