/-
SharedOS.Foundation.ObjectHeap — objects with an identity, and the tree a value denotes.

A container lives at an address and a value refers to it, so two containers with one content are two
values, and a program may write to a container others can see. `Denotes heap S v value` says that the
value reads as the tree `v` and that everything it reaches lies in the region `S`. A write outside
the region leaves it alone (`Denotes.transport`), which is the frame rule the proofs about a walk
over a heap rest on.
-/
import Mathlib.Data.List.TakeWhile
import SharedOS.Foundation.KeyOrder

namespace SharedOS.Foundation

/-! ## Values and containers -/

/-- A value of the language. A function, a bigint and a symbol have an identity and nothing else. -/
inductive Value where
  | undefined
  | null
  | bool (b : Bool)
  | num (x : JsNumber)
  | str (s : JsString)
  | function (identity : ℕ)
  | foreign (identity : ℕ)
  | ref (address : ℕ)
  deriving DecidableEq

/-- `===` on numbers. -/
def JsNumber.strictEquals (x y : JsNumber) : Bool := x ≠ .nan && x.unsigned = y.unsigned

/-- `===`. -/
def Value.strictEquals : Value → Value → Bool
  | .num x, .num y => x.strictEquals y
  | v, w => v = w

/-- The enumerable properties of an object, in property order. -/
abbrev Properties := List (JsString × Value)

/-- A `Map`, a `Set` and a `Date` are builtin. A hole of an array reads as `undefined`. -/
inductive Container where
  | array (items : List Value)
  | object (own inherited : Properties) (builtin : Bool)

/-- The objects there are, each by its address. -/
abbrev Heap := List Container

/-! ## Properties -/

/-- The value of a string of decimal digits. -/
def decimalValue (s : JsString) : Option ℕ :=
  s.foldlM (fun n u => if 0x30 ≤ u ∧ u ≤ 0x39 then some (10 * n + (u.val - 0x30)) else none) 0

/-- The array index a key names: a canonical decimal below `2 ^ 32 - 1`. -/
def arrayIndex (key : JsString) : Option ℕ :=
  if key = [] ∨ (key.head? = some 0x30 ∧ key.length ≠ 1) then none
  else (decimalValue key).filter fun n => n < 2 ^ 32 - 1

/-- Whether a present property stays before a new one: array indices ascending, then the other keys
as they came. -/
def precedes (present new : JsString) : Bool :=
  match arrayIndex present, arrayIndex new with
  | some i, some j => i < j
  | none, some _ => false
  | _, none => true

/-- Create or replace an own property. -/
def defineProperty (own : Properties) (key : JsString) (value : Value) : Properties :=
  if key ∈ own.map Prod.fst then own.map fun p => if p.1 = key then (key, value) else p
  else
    own.takeWhile (fun p => precedes p.1 key) ++
      (key, value) :: own.dropWhile fun p => precedes p.1 key

/-- `object[key] = value` on a plain object. The accessor of the prototype takes `__proto__`. -/
def assignProperty (own : Properties) (key : JsString) (value : Value) : Properties :=
  if key = "__proto__" then own else defineProperty own key value

/-- Every key comes after those before it and is another one. -/
def PropertyOrdered {α : Type} (entries : List (JsString × α)) : Prop :=
  entries.Pairwise fun a b => a.1 ≠ b.1 ∧ precedes a.1 b.1 = true

/-- The keys before one in property order are before it. -/
theorem PropertyOrdered.before {α : Type} {done rest : List (JsString × α)} {e : JsString × α}
    (h : PropertyOrdered (done ++ e :: rest)) :
    ∀ k ∈ done.map Prod.fst, k ≠ e.1 ∧ precedes k e.1 = true := by
  intro k hk
  obtain ⟨p, hp, rfl⟩ := List.mem_map.mp hk
  exact (List.pairwise_append.mp h).2.2 p hp e List.mem_cons_self

/-- The order is one of the keys alone. -/
theorem propertyOrdered_of_keys {α β : Type} {xs : List (JsString × α)} {ys : List (JsString × β)}
    (hkeys : xs.map Prod.fst = ys.map Prod.fst) (h : PropertyOrdered ys) : PropertyOrdered xs := by
  have hmap : ∀ {γ : Type} (zs : List (JsString × γ)), PropertyOrdered zs ↔
      (zs.map Prod.fst).Pairwise fun k k' => k ≠ k' ∧ precedes k k' = true := by
    intro γ zs
    rw [List.pairwise_map]
    exact Iff.rfl
  rw [hmap] at h ⊢
  rwa [hkeys]

/-- A key after all others is appended. -/
theorem assignProperty_last {own : Properties} {key : JsString} {value : Value}
    (hproto : key ≠ "__proto__") (h : ∀ p ∈ own, p.1 ≠ key ∧ precedes p.1 key = true) :
    assignProperty own key value = own ++ [(key, value)] := by
  have hfresh : key ∉ own.map Prod.fst := by
    intro hmem
    obtain ⟨p, hp, hkey⟩ := List.mem_map.mp hmem
    exact (h p hp).1 hkey
  have htake : own.takeWhile (fun p => precedes p.1 key) = own :=
    List.takeWhile_eq_self_iff.mpr fun p hp => (h p hp).2
  have hdrop : own.dropWhile (fun p => precedes p.1 key) = [] :=
    List.dropWhile_eq_nil_iff.mpr fun p hp => (h p hp).2
  unfold assignProperty defineProperty
  rw [if_neg hproto, if_neg hfresh, htake, hdrop]

/-! ## The tree a value denotes -/

mutual

/-- The value reads as the tree, and what it reaches lies in `S`. -/
def Denotes (heap : Heap) (S : ℕ → Prop) : Json → Value → Prop
  | .null, value => value = .null
  | .bool b, value => value = .bool b
  | .num x, value => value = .num x
  | .str s, value => value = .str s
  | .arr items, value => ∃ address values, value = .ref address ∧ S address ∧
      heap[address]? = some (.array values) ∧ DenotesItems heap S items values
  | .obj entries, value => ∃ address own, value = .ref address ∧ S address ∧
      heap[address]? = some (.object own [] false) ∧ DenotesEntries heap S entries own

/-- The values of an array, item by item. -/
def DenotesItems (heap : Heap) (S : ℕ → Prop) : List Json → List Value → Prop
  | [], values => values = []
  | v :: rest, values => ∃ value others, values = value :: others ∧ Denotes heap S v value ∧
      DenotesItems heap S rest others

/-- The properties of an object, entry by entry. -/
def DenotesEntries (heap : Heap) (S : ℕ → Prop) : List (JsString × Json) → Properties → Prop
  | [], own => own = []
  | (k, v) :: rest, own => ∃ value others, own = (k, value) :: others ∧ Denotes heap S v value ∧
      DenotesEntries heap S rest others

end

section Denotes

variable {heap heap' : Heap} {S S' : ℕ → Prop}

/-- **The frame rule.** A value denotes what it denoted once every address of its region is kept. -/
theorem Denotes.transport (hkeep : ∀ a c, S a → heap[a]? = some c → S' a ∧ heap'[a]? = some c) {v : Json} :
    ∀ {value : Value}, Denotes heap S v value → Denotes heap' S' v value := by
  induction v with
  | null => exact fun h => h
  | bool b => exact fun h => h
  | num x => exact fun h => h
  | str s => exact fun h => h
  | arr items ih =>
      rintro value ⟨address, values, rfl, hS, hread, hitems⟩
      obtain ⟨hS', hread'⟩ := hkeep address _ hS hread
      refine ⟨address, values, rfl, hS', hread', ?_⟩
      clear hread hread'
      induction items generalizing values with
      | nil => exact hitems
      | cons v rest ihrest =>
          obtain ⟨w, others, rfl, hv, hrest⟩ := hitems
          exact ⟨w, others, rfl, ih v List.mem_cons_self hv,
            ihrest (fun u hu => ih u (List.mem_cons_of_mem _ hu)) others hrest⟩
  | obj entries ih =>
      rintro value ⟨address, own, rfl, hS, hread, hentries⟩
      obtain ⟨hS', hread'⟩ := hkeep address _ hS hread
      refine ⟨address, own, rfl, hS', hread', ?_⟩
      clear hread hread'
      induction entries generalizing own with
      | nil => exact hentries
      | cons entry rest ihrest =>
          obtain ⟨k, v⟩ := entry
          obtain ⟨w, others, rfl, hv, hrest⟩ := hentries
          exact ⟨w, others, rfl, ih (k, v) List.mem_cons_self hv,
            ihrest (fun u hu => ih u (List.mem_cons_of_mem _ hu)) others hrest⟩

theorem DenotesItems.transport (hkeep : ∀ a c, S a → heap[a]? = some c → S' a ∧ heap'[a]? = some c) {items : List Json}
    {values : List Value} (h : DenotesItems heap S items values) :
    DenotesItems heap' S' items values := by
  induction items generalizing values with
  | nil => exact h
  | cons v rest ih =>
      obtain ⟨w, others, rfl, hv, hrest⟩ := h
      exact ⟨w, others, rfl, hv.transport hkeep, ih hrest⟩

theorem DenotesEntries.transport (hkeep : ∀ a c, S a → heap[a]? = some c → S' a ∧ heap'[a]? = some c)
    {entries : List (JsString × Json)} {own : Properties} (h : DenotesEntries heap S entries own) :
    DenotesEntries heap' S' entries own := by
  induction entries generalizing own with
  | nil => exact h
  | cons entry rest ih =>
      obtain ⟨w, others, rfl, hv, hrest⟩ := h
      exact ⟨w, others, rfl, hv.transport hkeep, ih hrest⟩

/-- One item more. -/
theorem DenotesItems.snoc {items : List Json} {values : List Value} {v : Json} {value : Value}
    (h : DenotesItems heap S items values) (hv : Denotes heap S v value) :
    DenotesItems heap S (items ++ [v]) (values ++ [value]) := by
  induction items generalizing values with
  | nil =>
      rw [show values = [] from h]
      exact ⟨value, [], rfl, hv, rfl⟩
  | cons w rest ih =>
      obtain ⟨x, others, rfl, hw, hrest⟩ := h
      exact ⟨x, others ++ [value], rfl, hw, ih hrest⟩

/-- One property more. -/
theorem DenotesEntries.snoc {entries : List (JsString × Json)} {own : Properties} {k : JsString}
    {v : Json} {value : Value} (h : DenotesEntries heap S entries own) (hv : Denotes heap S v value) :
    DenotesEntries heap S (entries ++ [(k, v)]) (own ++ [(k, value)]) := by
  induction entries generalizing own with
  | nil =>
      rw [show own = [] from h]
      exact ⟨value, [], rfl, hv, rfl⟩
  | cons entry rest ih =>
      obtain ⟨x, others, rfl, hw, hrest⟩ := h
      exact ⟨x, others ++ [(k, value)], rfl, hw, ih hrest⟩

/-- The keys of a record are those of what it denotes. -/
theorem DenotesEntries.keys {entries : List (JsString × Json)} {own : Properties}
    (h : DenotesEntries heap S entries own) : own.map Prod.fst = entries.map Prod.fst := by
  induction entries generalizing own with
  | nil => rw [show own = [] from h, List.map_nil, List.map_nil]
  | cons entry rest ih =>
      obtain ⟨x, others, rfl, -, hrest⟩ := h
      rw [List.map_cons, List.map_cons, ih hrest]

end Denotes

/-! ## Laying a tree out -/

mutual

/-- The tree in containers of its own, its parts first. -/
def build : Json → Heap → Value × Heap
  | .null, heap => (.null, heap)
  | .bool b, heap => (.bool b, heap)
  | .num x, heap => (.num x, heap)
  | .str s, heap => (.str s, heap)
  | .arr items, heap =>
    let built := buildItems items heap
    (.ref built.2.length, built.2 ++ [.array built.1])
  | .obj entries, heap =>
    let built := buildEntries entries heap
    (.ref built.2.length, built.2 ++ [.object built.1 [] false])

/-- The items of an array, allocated one after another. -/
def buildItems : List Json → Heap → List Value × Heap
  | [], heap => ([], heap)
  | v :: rest, heap =>
    let first := build v heap
    let others := buildItems rest first.2
    (first.1 :: others.1, others.2)

/-- The entries of an object, allocated one after another. -/
def buildEntries : List (JsString × Json) → Heap → Properties × Heap
  | [], heap => ([], heap)
  | (k, v) :: rest, heap =>
    let first := build v heap
    let others := buildEntries rest first.2
    ((k, first.1) :: others.1, others.2)

end

/-- What lies at an address stays there when the heap grows. -/
theorem Heap.grown {heap heap' : Heap} (h : heap <+: heap') {a : ℕ} {c : Container}
    (hread : heap[a]? = some c) : heap'[a]? = some c := by
  obtain ⟨more, rfl⟩ := h
  obtain ⟨hlt, -⟩ := List.getElem?_eq_some_iff.mp hread
  rw [List.getElem?_append_left hlt]
  exact hread

/-- What has been allocated is there. -/
theorem Heap.allocated (heap : Heap) (c : Container) : (heap ++ [c])[heap.length]? = some c := by
  simp

/-- **A tree that is laid out is denoted**, and nothing that was there has changed. -/
theorem build_denotes (v : Json) : ∀ heap : Heap, heap <+: (build v heap).2 ∧
    Denotes (build v heap).2 (heap.length ≤ ·) v (build v heap).1 := by
  induction v with
  | null => exact fun heap => ⟨List.prefix_rfl, rfl⟩
  | bool b => exact fun heap => ⟨List.prefix_rfl, rfl⟩
  | num x => exact fun heap => ⟨List.prefix_rfl, rfl⟩
  | str s => exact fun heap => ⟨List.prefix_rfl, rfl⟩
  | arr items ih =>
      intro heap
      have hitems : heap <+: (buildItems items heap).2 ∧
          DenotesItems (buildItems items heap).2 (heap.length ≤ ·) items
            (buildItems items heap).1 := by
        induction items generalizing heap with
        | nil => exact ⟨List.prefix_rfl, rfl⟩
        | cons v rest ihrest =>
            obtain ⟨hgrown, hv⟩ := ih v List.mem_cons_self heap
            obtain ⟨hmore, hrest⟩ := ihrest (fun u hu => ih u (List.mem_cons_of_mem _ hu))
              (build v heap).2
            refine ⟨hgrown.trans hmore, _, _, rfl, ?_, ?_⟩
            · exact hv.transport fun a c ha hread => ⟨ha, Heap.grown hmore hread⟩
            · refine hrest.transport fun a c ha hread => ⟨?_, hread⟩
              exact le_trans hgrown.length_le ha
      obtain ⟨hgrown, hdenotes⟩ := hitems
      refine ⟨hgrown.trans (List.prefix_append _ _), _, _, rfl, hgrown.length_le,
        Heap.allocated _ _, ?_⟩
      exact hdenotes.transport fun a c ha hread =>
        ⟨ha, Heap.grown (List.prefix_append _ _) hread⟩
  | obj entries ih =>
      intro heap
      have hentries : heap <+: (buildEntries entries heap).2 ∧
          DenotesEntries (buildEntries entries heap).2 (heap.length ≤ ·) entries
            (buildEntries entries heap).1 := by
        induction entries generalizing heap with
        | nil => exact ⟨List.prefix_rfl, rfl⟩
        | cons entry rest ihrest =>
            obtain ⟨k, v⟩ := entry
            obtain ⟨hgrown, hv⟩ := ih (k, v) List.mem_cons_self heap
            obtain ⟨hmore, hrest⟩ := ihrest (fun u hu => ih u (List.mem_cons_of_mem _ hu))
              (build v heap).2
            refine ⟨hgrown.trans hmore, _, _, rfl, ?_, ?_⟩
            · exact hv.transport fun a c ha hread => ⟨ha, Heap.grown hmore hread⟩
            · refine hrest.transport fun a c ha hread => ⟨?_, hread⟩
              exact le_trans hgrown.length_le ha
      obtain ⟨hgrown, hdenotes⟩ := hentries
      refine ⟨hgrown.trans (List.prefix_append _ _), _, _, rfl, hgrown.length_le,
        Heap.allocated _ _, ?_⟩
      exact hdenotes.transport fun a c ha hread =>
        ⟨ha, Heap.grown (List.prefix_append _ _) hread⟩

end SharedOS.Foundation
