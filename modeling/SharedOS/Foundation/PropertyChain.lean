/-
SharedOS.Foundation.PropertyChain — an object as the properties it has and those it inherits.

Reading a property, `for...in`, `key in object` and a spread each see another part of an object: the
first goes down the prototypes to the first layer that has the key, the second lists what is
enumerable there unless a layer above has the key at all, and the last copies what is enumerable in
the first layer. A property answers the same every time it is read, whether a value is stored there
or a function computes it.

`Object.prototype` is a layer like any other, at the end of the chain of every plain object. What it
holds is up to the program.
-/
import SharedOS.Foundation.ObjectHeap

namespace SharedOS.Foundation

/-! ## Objects -/

/-- A property: what it answers, whether it is listed, and whether a function answers. -/
structure Slot where
  value : Value
  enumerable : Bool
  accessor : Bool
  deriving DecidableEq

/-- A property that a literal, a spread or an assignment makes. -/
def Slot.data (value : Value) : Slot := ⟨value, true, false⟩

/-- The properties of one object, under strings, in property order. -/
abbrev Layer := List (JsString × Slot)

/-- What an object inherits from: `Object.prototype` and no other, or a chain of objects, with what
`instanceof` finds in it. -/
inductive Prototype where
  | ordinary
  | chain (layers : List Layer) (builtin : Bool)

/-- An array, by what its indices read as, which is what it iterates over, or another object. -/
inductive Entity where
  | array (items : List Value)
  | object (own : Layer) (prototype : Prototype)

/-- The objects there are. Assigning to a fresh object makes a property of its own. -/
structure Realm where
  objectPrototype : Layer
  entities : List Entity

namespace Layer

/-- The names of a layer, in order. -/
def keys (layer : Layer) : List JsString := layer.map Prod.fst

/-- The names a spread or a `for` loop meets. -/
def enumerableKeys (layer : Layer) : List JsString :=
  (layer.filter fun p => p.2.enumerable).map Prod.fst

/-- `{ ...object }`. -/
def spread (own : Layer) : Layer :=
  (own.filter fun p => p.2.enumerable).map fun p => (p.1, .data p.2.value)

/-- The property with this value, in the place the key has or after the others. -/
def define (own : Layer) (key : JsString) (value : Value) : Layer :=
  if key ∈ own.keys then own.map fun p => if p.1 = key then (key, .data value) else p
  else own ++ [(key, .data value)]

/-- One value under each of the keys. -/
def defineAll (own : Layer) (fields : List JsString) (value : Value) : Layer :=
  fields.foldl (fun own key => own.define key value) own

end Layer

/-- The property a read of the key comes to. -/
def findSlot (layers : List Layer) (key : JsString) : Option Slot :=
  layers.findSome? fun layer => layer.lookup key

/-- `object[key]`. -/
def getValue (layers : List Layer) (key : JsString) : Value :=
  ((findSlot layers key).map Slot.value).getD .undefined

/-- The keys of `for...in`. A key is hidden by one above it, listed or not. -/
def forInKeys : List Layer → List JsString
  | [] => []
  | layer :: rest => layer.enumerableKeys ++ (forInKeys rest).filter fun key => key ∉ layer.keys

namespace Realm

variable (realm : Realm)

/-- The object's own properties and then those it inherits. -/
def layers (own : Layer) : Prototype → List Layer
  | .ordinary => [own, realm.objectPrototype]
  | .chain layers _ => own :: layers

/-- What a value refers to. -/
def entity : Value → Option Entity
  | .ref address => realm.entities[address]?
  | _ => none

end Realm

/-! ## What was defined -/

/-- The keys and values of one layer, nothing hidden and nothing computed. -/
def Layer.Plain (own : Layer) : Prop := ∀ p ∈ own, p.2 = .data p.2.value

theorem spread_of_plain {own : Layer} (h : own.Plain) : own.spread = own := by
  have hall : own.filter (fun p => p.2.enumerable) = own := by
    refine List.filter_eq_self.mpr fun p hp => ?_
    rw [h p hp]
    rfl
  have hsame : own.map (fun p => (p.1, Slot.data p.2.value)) = own.map id := by
    refine List.map_congr_left fun p hp => ?_
    rw [← h p hp]
    rfl
  rw [Layer.spread, hall, hsame, List.map_id]

theorem enumerableKeys_of_plain {own : Layer} (h : own.Plain) : own.enumerableKeys = own.keys := by
  have hall : own.filter (fun p => p.2.enumerable) = own := by
    refine List.filter_eq_self.mpr fun p hp => ?_
    rw [h p hp]
    rfl
  rw [Layer.enumerableKeys, hall, Layer.keys]

theorem plain_define {own : Layer} (h : own.Plain) (key : JsString) (value : Value) :
    (own.define key value).Plain := by
  intro p hp
  unfold Layer.define at hp
  split at hp
  · obtain ⟨q, hq, rfl⟩ := List.mem_map.mp hp
    split
    · rfl
    · exact h q hq
  · rcases List.mem_append.mp hp with hp | hp
    · exact h p hp
    · rw [List.mem_singleton.mp hp]
      rfl

theorem mem_keys_define {own : Layer} {key k : JsString} {value : Value} :
    k ∈ (own.define key value).keys ↔ k = key ∨ k ∈ own.keys := by
  unfold Layer.define
  split
  · next hmem =>
      have hkeys : Layer.keys (own.map fun p => if p.1 = key then (key, .data value) else p) =
          own.keys := by
        unfold Layer.keys
        rw [List.map_map]
        refine List.map_congr_left fun p _ => ?_
        show (if p.1 = key then (key, Slot.data value) else p).1 = p.1
        split
        · next hp => exact hp.symm
        · rfl
      rw [hkeys]
      exact ⟨.inr, fun h => h.elim (fun heq => heq ▸ hmem) id⟩
  · simp only [Layer.keys, List.map_append, List.mem_append, List.map_cons, List.map_nil,
      List.mem_singleton]
    exact or_comm

/-- Replacing changes what its key is looked up to and nothing else. -/
theorem lookup_replace (own : Layer) (key k : JsString) (slot : Slot) :
    (own.map fun p => if p.1 = key then (key, slot) else p).lookup k =
      if k = key then (own.lookup k).map fun _ => slot else own.lookup k := by
  induction own with
  | nil => simp
  | cons p rest ih =>
      obtain ⟨first, old⟩ := p
      rw [List.map_cons]
      by_cases hfirst : first = key
      · subst hfirst
        rw [if_pos rfl, List.lookup_cons, List.lookup_cons, ih]
        by_cases hk : k = first
        · rw [hk, beq_self_eq_true, if_pos rfl, if_pos rfl]
          rfl
        · rw [beq_false_of_ne hk, if_neg hk]
      · rw [if_neg hfirst, List.lookup_cons, List.lookup_cons, ih]
        by_cases hk : k = first
        · rw [hk, beq_self_eq_true, if_neg hfirst, if_neg hfirst]
        · rw [beq_false_of_ne hk]

theorem lookup_ne_none_of_mem_keys {own : Layer} {key : JsString} (h : key ∈ own.keys) :
    own.lookup key ≠ none := by
  intro hnone
  obtain ⟨p, hp, rfl⟩ := List.mem_map.mp h
  exact bne_iff_ne.mp (List.lookup_eq_none_iff.mp hnone p hp) rfl

/-- **A defined property is what its key is looked up to.** -/
theorem lookup_define (own : Layer) (key k : JsString) (value : Value) :
    (own.define key value).lookup k = if k = key then some (.data value) else own.lookup k := by
  unfold Layer.define
  split
  · next hmem =>
      rw [lookup_replace]
      by_cases hk : k = key
      · obtain ⟨slot, hslot⟩ := Option.ne_none_iff_exists'.mp (lookup_ne_none_of_mem_keys hmem)
        rw [if_pos hk, if_pos hk, hk, hslot]
        rfl
      · rw [if_neg hk, if_neg hk]
  · next hmem =>
      have hnone : own.lookup key = none := by
        refine List.lookup_eq_none_iff.mpr fun p hp => bne_iff_ne.mpr ?_
        rintro rfl
        exact hmem (List.mem_map_of_mem hp)
      rw [List.lookup_append]
      by_cases hk : k = key
      · rw [if_pos hk, hk, hnone]
        simp
      · rw [if_neg hk]
        simp [List.lookup_cons, beq_false_of_ne hk]

theorem plain_defineAll {own : Layer} (h : own.Plain) (fields : List JsString) (value : Value) :
    (own.defineAll fields value).Plain := by
  unfold Layer.defineAll
  induction fields generalizing own with
  | nil => exact h
  | cons field rest ih => exact ih (plain_define h field value)

theorem mem_keys_defineAll {own : Layer} {fields : List JsString} {k : JsString} {value : Value} :
    k ∈ (own.defineAll fields value).keys ↔ k ∈ fields ∨ k ∈ own.keys := by
  unfold Layer.defineAll
  induction fields generalizing own with
  | nil => simp
  | cons field rest ih =>
      rw [List.foldl_cons, ih, mem_keys_define, List.mem_cons, or_assoc]
      exact ⟨fun h => by tauto, fun h => by tauto⟩

theorem lookup_defineAll (own : Layer) (fields : List JsString) (k : JsString) (value : Value) :
    (own.defineAll fields value).lookup k =
      if k ∈ fields then some (.data value) else own.lookup k := by
  unfold Layer.defineAll
  induction fields generalizing own with
  | nil => simp
  | cons field rest ih =>
      rw [List.foldl_cons, ih, lookup_define]
      by_cases hrest : k ∈ rest
      · rw [if_pos hrest, if_pos (List.mem_cons_of_mem _ hrest)]
      · rw [if_neg hrest]
        simp only [List.mem_cons, hrest, or_false]

/-! ## Reading down a chain -/

/-- A read looks at the first layer first. -/
theorem getValue_cons (own : Layer) (rest : List Layer) (key : JsString) :
    getValue (own :: rest) key = ((own.lookup key).map Slot.value).getD (getValue rest key) := by
  unfold getValue findSlot
  rw [List.findSome?_cons]
  cases own.lookup key with
  | none => rfl
  | some slot => rfl

/-- **A defined property hides the ones below it**, and leaves every other read as it was. -/
theorem getValue_defineAll (own : Layer) (rest : List Layer) (fields : List JsString)
    (value : Value) (k : JsString) :
    getValue (own.defineAll fields value :: rest) k =
      if k ∈ fields then value else getValue (own :: rest) k := by
  rw [getValue_cons, getValue_cons, lookup_defineAll]
  by_cases hk : k ∈ fields
  · rw [if_pos hk, if_pos hk]
    rfl
  · rw [if_neg hk, if_neg hk]

/-- Nothing is listed of a layer without enumerable keys. -/
theorem forInKeys_of_unlisted {own hidden : Layer} (h : hidden.enumerableKeys = []) :
    forInKeys [own, hidden] = own.enumerableKeys := by
  simp only [forInKeys, h, List.filter_nil, List.append_nil]

end SharedOS.Foundation
