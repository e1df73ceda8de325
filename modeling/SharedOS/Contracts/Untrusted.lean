/-
SharedOS.Contracts.Untrusted — what the tool contract reads of a value a host passes.

The typed schemas begin where a value is already shaped like its contract. These begin with any value
of the language: an object of any prototype, with any properties, holding anything. What they accept
is what the typed schemas work on.

An object's schema reads the fields it declares by property access, and finds those it does not with
`for...in`. So what a prototype holds is read of the object too, and a host that extends a built-in
prototype changes what is accepted. The realm says what is found where.

The JSON schemas recurse, on values that may reach themselves, with as much stack as their first
argument says. Running out is an answer of its own (`overflow`): the language throws there, and a
throw is not a refusal.
-/
import SharedOS.Contracts.Message
import SharedOS.Contracts.Tool
import SharedOS.Foundation.ValueSchema

namespace SharedOS.Contracts.Untrusted

open SharedOS.Foundation

variable (realm : Realm)

/-! ## JSON -/

/-- A value that is written as it is. A number must be finite. -/
def stringValue : Value → Parse Json
  | .str s => .accepted (.str s)
  | _ => .refused

/-- A number, if it is finite. -/
def numberValue : Value → Parse Json
  | .num (.finite q) => .accepted (.num (.finite q))
  | .num .negZero => .accepted (.num .negZero)
  | _ => .refused

/-- A boolean, as it is. -/
def booleanValue : Value → Parse Json
  | .bool b => .accepted (.bool b)
  | _ => .refused

/-- Null, as it is. -/
def nullValue : Value → Parse Json
  | .null => .accepted .null
  | _ => .refused

/-- `JsonValueSchema`. -/
def jsonValueSchema : ℕ → Value → Parse Json
  | 0, _ => .overflow
  | stack + 1, value =>
    .firstOf [stringValue value, numberValue value, booleanValue value, nullValue value,
      Json.arr <$> realm.onEntity (Realm.arrayOf (jsonValueSchema stack)) value,
      Json.obj <$> realm.onEntity (realm.recordOf (jsonValueSchema stack)) value]

/-- `JsonObjectSchema`. -/
def jsonObjectSchema : ℕ → Value → Parse Json
  | 0, _ => .overflow
  | stack + 1, value =>
    Json.obj <$> realm.onEntity (realm.recordOf (jsonValueSchema realm stack)) value

section JsonReads

variable {realm : Realm}

/-- Of the last two options of the union, a container takes at most one. -/
theorem firstOf_containers {left right : Parse Json} {t : Json}
    (h : left = .refused ∨ right = .refused) :
    Parse.firstOf [.refused, .refused, .refused, .refused, left, right] = .accepted t ↔
      left = .accepted t ∨ right = .accepted t := by
  rcases h with rfl | rfl
  · cases right <;> simp [Parse.firstOf]
  · cases left <;> simp [Parse.firstOf]

/-- An array is read by its elements. -/
theorem jsonValueSchema_array {stack address : ℕ} {items : List Value} {t : Json}
    (h : realm.entities[address]? = some (.array items)) :
    jsonValueSchema realm (stack + 1) (.ref address) = .accepted t ↔
      ∃ out, items.map (jsonValueSchema realm stack) = out.map Parse.accepted ∧ t = .arr out := by
  have hentity : realm.entity (.ref address) = some (.array items) := h
  have hright : Json.obj <$> realm.onEntity (realm.recordOf (jsonValueSchema realm stack))
      (.ref address) = .refused := by
    simp only [Realm.onEntity, hentity, Realm.recordOf]
    rfl
  have hleft : realm.onEntity (Realm.arrayOf (jsonValueSchema realm stack)) (.ref address) =
      .all (items.map (jsonValueSchema realm stack)) := by
    simp only [Realm.onEntity, hentity, Realm.arrayOf]
  refine (firstOf_containers (.inr hright)).trans ?_
  rw [hright, hleft, Parse.map_eq_accepted]
  simp only [Parse.all_eq_accepted, reduceCtorEq, or_false]

/-- A record is read by its keys, where the schema takes it for an object. -/
theorem recordOf_eq_accepted {item : Value → Parse Json} {own : Layer} {prototype : Prototype}
    {out : List (JsString × Json)} :
    realm.recordOf item (.object own prototype) = .accepted out ↔
      realm.getParsedType (.object own prototype) = .object ∧
        ∃ values, (forInKeys (realm.layers own prototype)).map
            (fun key => item (getValue (realm.layers own prototype) key)) =
              values.map Parse.accepted ∧
          out = Realm.mergeObject ((forInKeys (realm.layers own prototype)).zip values) := by
  simp only [Realm.recordOf]
  by_cases hobject : realm.getParsedType (.object own prototype) = .object
  · rw [if_neg (not_not.mpr hobject), Parse.map_eq_accepted]
    simp only [Parse.all_eq_accepted, hobject, true_and]
  · rw [if_pos hobject]
    exact iff_of_false nofun fun h => hobject h.1

theorem jsonValueSchema_object {stack address : ℕ} {own : Layer} {prototype : Prototype} {t : Json}
    (h : realm.entities[address]? = some (.object own prototype)) :
    jsonValueSchema realm (stack + 1) (.ref address) = .accepted t ↔
      ∃ out, realm.recordOf (jsonValueSchema realm stack) (.object own prototype) = .accepted out ∧
        t = .obj out := by
  have hentity : realm.entity (.ref address) = some (.object own prototype) := h
  have hleft : Json.arr <$> realm.onEntity (Realm.arrayOf (jsonValueSchema realm stack))
      (.ref address) = .refused := by
    simp only [Realm.onEntity, hentity, Realm.arrayOf]
    rfl
  have hright : realm.onEntity (realm.recordOf (jsonValueSchema realm stack)) (.ref address) =
      realm.recordOf (jsonValueSchema realm stack) (.object own prototype) := by
    simp only [Realm.onEntity, hentity]
  refine (firstOf_containers (.inl hleft)).trans ?_
  rw [hleft, hright, Parse.map_eq_accepted]
  simp only [reduceCtorEq, false_or]

end JsonReads

/-! ## The requirement -/

/-- `AddressSchema`: the kind picks the object. -/
def addressSchema : Value → Parse Address :=
  realm.onEntity fun
    | .array _ => .refused
    | .object own prototype =>
      match getValue (realm.layers own prototype) "kind" with
      | .str kind =>
        match addressOfKind kind with
        | none => .refused
        | some (address, idKey) =>
          realm.strictObject ["kind", idKey]
            (fun read => address <$> onText identifierSchema (read idKey)) (.object own prototype)
      | _ => .refused

/-- `z.array(PathSegmentSchema).max(64)`. -/
def pathSchema (value : Value) : Parse (List JsString) :=
  (realm.onEntity (Realm.arrayOf (onText pathSegmentSchema)) value).refine fun path =>
    path.length ≤ 64

/-- `ResourceRefSchema`. -/
def resourceRefSchema : Value → Parse ResourceRef :=
  realm.onEntity <| realm.strictObject ["namespace", "path", "owner"] fun read =>
    ResourceRef.mk <$> onText identifierSchema (read "namespace") <*> pathSchema realm (read "path")
      <*> optionalValue (addressSchema realm) (read "owner")

/-- `CapabilityRequirementSchema`. -/
def capabilityRequirementSchema : Value → Parse CapabilityRequirement :=
  realm.onEntity <| realm.strictObject ["resource", "action"] fun read =>
    CapabilityRequirement.mk <$> resourceRefSchema realm (read "resource")
      <*> onText actionSchema (read "action")

/-! ## The definition -/

/-- `ToolAnnotationsSchema`. -/
def toolAnnotationsSchema : Value → Parse ToolAnnotations :=
  realm.onEntity <| realm.strictObject ["readOnly", "destructive", "idempotent"] fun read =>
    ToolAnnotations.mk <$> optionalValue onFlag (read "readOnly")
      <*> optionalValue onFlag (read "destructive") <*> optionalValue onFlag (read "idempotent")

/-- `ToolReadWriteSchema`. -/
def toolReadWriteSchema (s : JsString) : Option ToolReadWrite :=
  if s = "read" then some .read else if s = "write" then some .write else none

/-- The fields of `ToolDefinitionSchema`. -/
def definitionFields : List JsString :=
  ["name", "description", "namespace", "source", "readWrite", "inputSchema", "outputSchema",
    "requiredCapability", "annotations", "metadata"]

/-- The fields, read one by one. -/
def readDefinition (stack : ℕ) (read : JsString → Value) : Parse ToolDefinition :=
  ToolDefinition.mk <$> onText toolNameSchema (read "name")
    <*> onText (boundedString 8192) (read "description")
    <*> onText identifierSchema (read "namespace")
    <*> onText identifierSchema (read "source")
    <*> onText toolReadWriteSchema (read "readWrite")
    <*> jsonObjectSchema realm stack (read "inputSchema")
    <*> optionalValue (jsonObjectSchema realm stack) (read "outputSchema")
    <*> capabilityRequirementSchema realm (read "requiredCapability")
    <*> optionalValue (toolAnnotationsSchema realm) (read "annotations")
    <*> optionalValue (jsonObjectSchema realm stack) (read "metadata")

/-- `ToolDefinitionSchema`. -/
def toolDefinitionSchema (stack : ℕ) (entity : Entity) : Parse ToolDefinition :=
  (realm.strictObject definitionFields (readDefinition realm stack) entity).refine fun d =>
    annotationsAgree d.readWrite d.annotations

section DefinitionReads

variable {realm : Realm} {stack : ℕ}

/-- **A definition is read when each of its fields is.** -/
theorem readDefinition_eq_accepted {read : JsString → Value} {d : ToolDefinition} :
    readDefinition realm stack read = .accepted d ↔
      onText toolNameSchema (read "name") = .accepted d.name ∧
      onText (boundedString 8192) (read "description") = .accepted d.description ∧
      onText identifierSchema (read "namespace") = .accepted d.namespace ∧
      onText identifierSchema (read "source") = .accepted d.source ∧
      onText toolReadWriteSchema (read "readWrite") = .accepted d.readWrite ∧
      jsonObjectSchema realm stack (read "inputSchema") = .accepted d.inputSchema ∧
      optionalValue (jsonObjectSchema realm stack) (read "outputSchema") =
        .accepted d.outputSchema ∧
      capabilityRequirementSchema realm (read "requiredCapability") =
        .accepted d.requiredCapability ∧
      optionalValue (toolAnnotationsSchema realm) (read "annotations") = .accepted d.annotations ∧
      optionalValue (jsonObjectSchema realm stack) (read "metadata") = .accepted d.metadata := by
  unfold readDefinition
  constructor
  · intro h
    obtain ⟨f9, metadata, h9, hmetadata, hd9⟩ := Parse.seq_eq_accepted.mp h
    obtain ⟨f8, annotations, h8, hannotations, hd8⟩ := Parse.seq_eq_accepted.mp h9
    obtain ⟨f7, requiredCapability, h7, hrequired, hd7⟩ := Parse.seq_eq_accepted.mp h8
    obtain ⟨f6, outputSchema, h6, houtput, hd6⟩ := Parse.seq_eq_accepted.mp h7
    obtain ⟨f5, inputSchema, h5, hinput, hd5⟩ := Parse.seq_eq_accepted.mp h6
    obtain ⟨f4, readWrite, h4, hreadWrite, hd4⟩ := Parse.seq_eq_accepted.mp h5
    obtain ⟨f3, source, h3, hsource, hd3⟩ := Parse.seq_eq_accepted.mp h4
    obtain ⟨f2, «namespace», h2, hnamespace, hd2⟩ := Parse.seq_eq_accepted.mp h3
    obtain ⟨f1, description, h1, hdescription, hd1⟩ := Parse.seq_eq_accepted.mp h2
    obtain ⟨name, hname, hd0⟩ := Parse.map_eq_accepted.mp h1
    subst hd0 hd1 hd2 hd3 hd4 hd5 hd6 hd7 hd8 hd9
    exact ⟨hname, hdescription, hnamespace, hsource, hreadWrite, hinput, houtput, hrequired,
      hannotations, hmetadata⟩
  · rintro ⟨hname, hdescription, hnamespace, hsource, hreadWrite, hinput, houtput, hrequired,
      hannotations, hmetadata⟩
    rw [hname, hdescription, hnamespace, hsource, hreadWrite, hinput, houtput, hrequired,
      hannotations, hmetadata]
    rfl

/-- What the contract accepts of an object. -/
theorem toolDefinitionSchema_eq_accepted {own : Layer} {prototype : Prototype}
    {d : ToolDefinition} :
    toolDefinitionSchema realm stack (.object own prototype) = .accepted d ↔
      realm.getParsedType (.object own prototype) = .object ∧
      (∀ key ∈ forInKeys (realm.layers own prototype), key ∈ definitionFields) ∧
      readDefinition realm stack (getValue (realm.layers own prototype)) = .accepted d ∧
      annotationsAgree d.readWrite d.annotations = true := by
  unfold toolDefinitionSchema
  rw [Parse.refine_eq_accepted]
  simp only [Realm.strictObject]
  by_cases hobject : realm.getParsedType (.object own prototype) = .object
  · rw [if_neg (not_not.mpr hobject), Parse.refine_eq_accepted, List.all_eq_true]
    simp only [decide_eq_true_eq]
    constructor
    · rintro ⟨⟨hread, hkeys⟩, hagree⟩
      exact ⟨hobject, hkeys, hread, hagree⟩
    · rintro ⟨-, hkeys, hread, hagree⟩
      exact ⟨⟨hread, hkeys⟩, hagree⟩
  · rw [if_pos hobject]
    exact iff_of_false (fun h => nomatch h.1) fun h => hobject h.1

end DefinitionReads

end SharedOS.Contracts.Untrusted
