/-
SharedOS.Contracts.Common — identifiers, timestamps and addresses.

A schema is a partial function: what it answers is the parsed value (a string comes back trimmed),
and nothing when it refuses. Lengths are counted in UTF-16 code units, as the language counts them,
and trimming takes the white space of the language.

A timestamp is a text. Whether it is one is the platform's parser's to say, and two texts of one
instant are two timestamps: what compares instants compares the parsed values (`Core.Internal`).

An address is one of four kinds with one identifier, and its JSON object names the identifier by the
kind. Two addresses are the same just where kind and identifier are (`eq_of_kind_identifier`).
-/
import SharedOS.Foundation.Platform

namespace SharedOS.Contracts

open SharedOS.Foundation

/-- `z.string().trim().min(1).max(limit)`. -/
def trimmedString (limit : Nat) (s : JsString) : Option JsString :=
  let t := trim s
  if 1 ≤ t.length ∧ t.length ≤ limit then some t else none

theorem trimmedString_idem {limit : Nat} {s t : JsString} (h : trimmedString limit s = some t) :
    trimmedString limit t = some t := by
  unfold trimmedString at h ⊢
  dsimp only at h ⊢
  split_ifs at h with hlength
  cases h
  rw [trim_trim, if_pos hlength]

theorem eq_trim_of_trimmedString {limit : Nat} {s t : JsString} (h : trimmedString limit s = some t) :
    t = trim s := by
  unfold trimmedString at h
  dsimp only at h
  split_ifs at h
  exact (Option.some.inj h).symm

/-- `IdentifierSchema`. -/
def identifierSchema : JsString → Option JsString := trimmedString 256

/-- `TimestampSchema`. -/
def timestampSchema [HostPlatform] (s : JsString) : Option JsString :=
  if HostPlatform.isDatetime s then some s else none

/-- A digit of a lowercase hexadecimal numeral. -/
def isHexUnit (u : CodeUnit) : Bool := (0x30 ≤ u && u ≤ 0x39) || (0x61 ≤ u && u ≤ 0x66)

/-- `/^[0-9a-f]{64}$/u`, which both the hash of a content and the hash of a catalogue meet. -/
def isContentHash (s : JsString) : Bool := s.length = 64 && s.all isHexUnit

/-- `.optional()` on a schema. -/
def optionalSchema {α : Type} (schema : α → Option α) : Option α → Option (Option α)
  | none => some none
  | some a => (schema a).map some

/-- An optional field is accepted when it is absent or its value is accepted. -/
theorem optionalSchema_isSome_iff {α : Type} {schema : α → Option α} {a : Option α} :
    (optionalSchema schema a).isSome ↔ ∀ x, a = some x → (schema x).isSome := by
  cases a with
  | none => simp [optionalSchema]
  | some a => simp [optionalSchema]

/-- A schema that only tests leaves what it accepts as it is. -/
theorem optionalSchema_test {α : Type} {p : α → Prop} [DecidablePred p] {a b : Option α} :
    optionalSchema (fun x => if p x then some x else none) a = some b ↔
      b = a ∧ ∀ x, a = some x → p x := by
  cases a with
  | none => simp [optionalSchema, eq_comm]
  | some a =>
      by_cases hp : p a
      · simp [optionalSchema, hp, eq_comm]
      · simp [optionalSchema, hp]

/-- What an idempotent schema answers, its optional form leaves as it is. -/
theorem optionalSchema_idem {α : Type} {schema : α → Option α}
    (hschema : ∀ a b, schema a = some b → schema b = some b) {a b : Option α}
    (h : optionalSchema schema a = some b) : optionalSchema schema b = some b := by
  cases a with
  | none =>
      cases h
      rfl
  | some a =>
      obtain ⟨parsed, hparsed, rfl⟩ := Option.map_eq_some_iff.mp h
      show (schema parsed).map some = some (some parsed)
      rw [hschema a parsed hparsed, Option.map_some]

theorem timestampSchema_idem [HostPlatform] {s t : JsString} (h : timestampSchema s = some t) :
    timestampSchema t = some t := by
  unfold timestampSchema at h
  split at h
  · next hdatetime =>
      cases h
      exact if_pos hdatetime
  · cases h

/-- An entry of a JSON object that is left out when the field is absent. -/
def optionalEntry (key : JsString) : Option Json → List (JsString × Json)
  | none => []
  | some v => [(key, v)]

/-- A structured protocol address. -/
inductive Address where
  | human (userId : JsString)
  | agent (agentId : JsString)
  | group (conversationId : JsString)
  | service (serviceId : JsString)
  deriving DecidableEq

namespace Address

/-- The word that tells an address. -/
def kind : Address → JsString
  | .human _ => "human"
  | .agent _ => "agent"
  | .group _ => "group"
  | .service _ => "service"

/-- The name of the field that carries the identifier. -/
def idKey : Address → JsString
  | .human _ => "userId"
  | .agent _ => "agentId"
  | .group _ => "conversationId"
  | .service _ => "serviceId"

/-- What an address of its kind is named by. -/
def identifier : Address → JsString
  | .human i | .agent i | .group i | .service i => i

/-- The address as an object: its kind, and its identifier under the kind's own key. -/
def toJson (a : Address) : Json := .obj [("kind", .str a.kind), (a.idKey, .str a.identifier)]

/-- The kind and the identifier determine the address. -/
theorem eq_of_kind_identifier {a b : Address} (hk : a.kind = b.kind)
    (hi : a.identifier = b.identifier) : a = b := by
  cases a <;> cases b <;> dsimp only [kind, identifier] at hk hi <;> first
    | exact absurd hk (by decide)
    | rw [hi]

theorem idKey_ne_kind (a : Address) : a.idKey ≠ "kind" := by
  cases a <;> dsimp only [idKey] <;> decide

/-- `AddressSchema`. -/
def schema : Address → Option Address
  | .human i => (identifierSchema i).map .human
  | .agent i => (identifierSchema i).map .agent
  | .group i => (identifierSchema i).map .group
  | .service i => (identifierSchema i).map .service

end Address

end SharedOS.Contracts
