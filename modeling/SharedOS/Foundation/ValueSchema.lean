/-
SharedOS.Foundation.ValueSchema — schemas that read values of the language.

A schema over an object reads its own fields by property access and finds what it does not know with
`for...in`. Every field is parsed, whatever the others came to, and one that exhausts the stack takes
the whole parse with it, so a parse is accepted exactly when each of its parts is
(`Parse.seq_eq_accepted`, `Parse.all_eq_accepted`). A union takes the first option that accepts.
-/
import SharedOS.Foundation.JsonText
import SharedOS.Foundation.PropertyChain

namespace SharedOS.Foundation

/-- How a parse ended: out of stack, with a refusal, or with what it has read. -/
inductive Parse (α : Type) where
  | overflow
  | refused
  | accepted (value : α)

namespace Parse

variable {α β : Type}

/-- Both parts are parsed. -/
def apply : Parse (α → β) → Parse α → Parse β
  | .overflow, _ => .overflow
  | .refused, .overflow => .overflow
  | .accepted _, .overflow => .overflow
  | .accepted f, .accepted a => .accepted (f a)
  | _, _ => .refused

instance : Applicative Parse where
  pure := .accepted
  seq f x := f.apply (x ())

/-- The parse was accepted. -/
def isAccepted : Parse α → Bool
  | .accepted _ => true
  | _ => false

/-- A reading that raises no issue but where it finds nothing. -/
def ofOption : Option α → Parse α
  | none => .refused
  | some a => .accepted a

/-- An issue raised on what was read, or beside it. -/
def refine (test : α → Bool) : Parse α → Parse α
  | .accepted a => if test a then .accepted a else .refused
  | parse => parse

/-- The parses one after another, accepted where each is. -/
def all : List (Parse α) → Parse (List α)
  | [] => .accepted []
  | parse :: rest => List.cons <$> parse <*> all rest

/-- `z.union`. -/
def firstOf : List (Parse α) → Parse α
  | [] => .refused
  | .refused :: rest => firstOf rest
  | parse :: _ => parse

/-! ## What is accepted -/

theorem refused_ne_accepted (a : α) : (refused : Parse α) ≠ .accepted a := nofun

theorem seq_eq_accepted {f : Parse (α → β)} {x : Parse α} {b : β} :
    f <*> x = .accepted b ↔ ∃ g a, f = .accepted g ∧ x = .accepted a ∧ b = g a := by
  show f.apply x = .accepted b ↔ _
  constructor
  · intro h
    unfold apply at h
    split at h
    · cases h
    · cases h
    · cases h
    · next g a => exact ⟨g, a, rfl, rfl, (Parse.accepted.inj h).symm⟩
    · cases h
  · rintro ⟨g, a, rfl, rfl, rfl⟩
    rfl

theorem map_eq_accepted {f : α → β} {x : Parse α} {b : β} :
    f <$> x = .accepted b ↔ ∃ a, x = .accepted a ∧ b = f a := by
  show (Parse.accepted f).apply x = .accepted b ↔ _
  constructor
  · intro h
    cases x with
    | accepted a => exact ⟨a, rfl, (Parse.accepted.inj h).symm⟩
    | overflow => cases h
    | refused => cases h
  · rintro ⟨a, rfl, rfl⟩
    rfl

theorem refine_eq_accepted {test : α → Bool} {x : Parse α} {a : α} :
    x.refine test = .accepted a ↔ x = .accepted a ∧ test a = true := by
  cases x with
  | accepted b =>
      show (if test b then Parse.accepted b else .refused) = .accepted a ↔ _
      by_cases hb : test b = true
      · rw [if_pos hb, Parse.accepted.injEq]
        exact ⟨fun h => ⟨h, h ▸ hb⟩, fun h => h.1⟩
      · rw [if_neg hb, Parse.accepted.injEq]
        refine iff_of_false nofun ?_
        rintro ⟨rfl, hpassed⟩
        exact hb hpassed
  | overflow => exact iff_of_false nofun nofun
  | refused => exact iff_of_false nofun nofun

/-- **A list of parses is accepted when each of them is.** -/
theorem all_eq_accepted {parses : List (Parse α)} {values : List α} :
    all parses = .accepted values ↔ parses = values.map .accepted := by
  induction parses generalizing values with
  | nil =>
      rw [all, Parse.accepted.injEq, eq_comm (a := []), eq_comm (a := []), List.map_eq_nil_iff]
  | cons parse rest ih =>
      rw [all, seq_eq_accepted]
      constructor
      · rintro ⟨g, tail, hg, htail, rfl⟩
        obtain ⟨head, rfl, rfl⟩ := map_eq_accepted.mp hg
        rw [List.map_cons, ← ih.mp htail]
      · intro h
        cases values with
        | nil => cases h
        | cons head tail =>
            rw [List.map_cons, List.cons.injEq] at h
            exact ⟨_, tail, map_eq_accepted.mpr ⟨head, h.1, rfl⟩, ih.mpr h.2, rfl⟩

end Parse

/-! ## Schemas -/

/-- `typeof value === "function"`. -/
def Value.isFunction : Value → Bool
  | .function _ => true
  | _ => false

/-- What a schema takes a value for that is an object to the language. -/
inductive ParsedType where
  | array
  | promise
  | builtin
  | object
  deriving DecidableEq

/-- Whether `instanceof` finds a `Map`, a `Set` or a `Date`. -/
def Prototype.isBuiltin : Prototype → Bool
  | .ordinary => false
  | .chain _ builtin => builtin

namespace Realm

variable (realm : Realm) {α : Type}

/-- `getParsedType` on an object. -/
def getParsedType : Entity → ParsedType
  | .array _ => .array
  | .object own prototype =>
    let read := getValue (realm.layers own prototype)
    if (read "then").isFunction && (read "catch").isFunction then .promise
    else if prototype.isBuiltin then .builtin
    else .object

/-- `z.object({...}).strict()`, from the fields it names and how it reads them. -/
def strictObject (fields : List JsString) (read : (JsString → Value) → Parse α) :
    Entity → Parse α
  | .array _ => .refused
  | .object own prototype =>
    if realm.getParsedType (.object own prototype) ≠ .object then .refused
    else
      let layers := realm.layers own prototype
      (read (getValue layers)).refine fun _ => (forInKeys layers).all fun key => key ∈ fields

/-- `z.array(...)`. -/
def arrayOf (item : Value → Parse α) : Entity → Parse (List α)
  | .array items => .all (items.map item)
  | .object .. => .refused

/-- The object a record is rebuilt as. -/
def mergeObject (entries : List (JsString × Json)) : List (JsString × Json) :=
  createObject (entries.filter fun e => e.1 ≠ "__proto__")

/-- `z.record(...)`. -/
def recordOf (item : Value → Parse Json) : Entity → Parse (List (JsString × Json))
  | .array _ => .refused
  | .object own prototype =>
    if realm.getParsedType (.object own prototype) ≠ .object then .refused
    else
      let layers := realm.layers own prototype
      let keys := forInKeys layers
      (fun values => mergeObject (keys.zip values)) <$>
        Parse.all (keys.map fun key => item (getValue layers key))

/-- A schema of objects, on any value. -/
def onEntity (schema : Entity → Parse α) (value : Value) : Parse α :=
  match realm.entity value with
  | none => .refused
  | some entity => schema entity

end Realm

/-- A schema of strings, on any value. -/
def onText {α : Type} (schema : JsString → Option α) : Value → Parse α
  | .str s => .ofOption (schema s)
  | _ => .refused

/-- `z.boolean()`. -/
def onFlag : Value → Parse Bool
  | .bool b => .accepted b
  | _ => .refused

/-- `.optional()`. -/
def optionalValue {α : Type} (schema : Value → Parse α) : Value → Parse (Option α)
  | .undefined => .accepted none
  | value => some <$> schema value

end SharedOS.Foundation
