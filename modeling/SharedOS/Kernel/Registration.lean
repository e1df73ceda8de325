/-
SharedOS.Kernel.Registration — registering a tool whose definition is any value at all.

The contract decides what a definition is, and its JSON fields are most of what that costs. So a
definition that spreads faithfully is parsed with an empty object in place of each JSON field it
has, and the fields themselves are read in one walk. The walk accepts what the contract's own schema
accepts and reads it alike (`readJsonObject_iff`), and a faithful spread shows the contract the same
object, so a registration is decided as the contract decides it.

There is one way round this. Whether a field was read is asked of a plain object, which answers with
what `Object.prototype` has where it has nothing itself. A definition that sets a field to
`undefined`, over a value that `Object.prototype` would have answered with, is parsed with an empty
object there (`parseDefinition_iff`).
-/
import SharedOS.Contracts.Untrusted
import SharedOS.Kernel.ToolRegistry

namespace SharedOS.Kernel.Registration

open SharedOS.Foundation SharedOS.Contracts SharedOS.Contracts.Untrusted

/-! ## The walk -/

section Walk

variable (realm : Realm)

/-- `isRecordLike`. -/
def isRecordLike (value : Value) : Bool :=
  match realm.entity value with
  | some (.object own prototype) =>
    let read := getValue (realm.layers own prototype)
    !((read "then").isFunction && (read "catch").isFunction) && !prototype.isBuiltin
  | _ => false

/-- The loop over an array: every element is pushed on the copy. -/
def readItems (read : Value → Parse Json) : List Value → List Json → Parse (List Json)
  | [], copy => .accepted copy
  | value :: rest, copy =>
    match read value with
    | .accepted item => readItems read rest (copy ++ [item])
    | .refused => .refused
    | .overflow => .overflow

/-- The loop over the keys of a record. A `__proto__` is dropped once its value has been read. -/
def readKeys (read : JsString → Parse Json) :
    List JsString → List (JsString × Json) → Parse (List (JsString × Json))
  | [], copy => .accepted copy
  | key :: rest, copy =>
    match read key with
    | .accepted item =>
      readKeys read rest (if key = "__proto__" then copy else createProperty copy key item)
    | .refused => .refused
    | .overflow => .overflow

/-- `readJsonValue` on what a host passed: every container is copied. -/
def readJsonValue : ℕ → Value → Parse Json
  | 0, _ => .overflow
  | stack + 1, value =>
    match value with
    | .str s => .accepted (.str s)
    | .bool b => .accepted (.bool b)
    | .num (.finite q) => .accepted (.num (.finite q))
    | .num .negZero => .accepted (.num .negZero)
    | .num _ => .refused
    | .undefined | .function _ | .foreign _ => .refused
    | .null => .accepted .null
    | .ref address =>
      match realm.entities[address]? with
      | none => .refused
      | some (.array items) => Json.arr <$> readItems (readJsonValue stack) items []
      | some (.object own prototype) =>
        if !isRecordLike realm (.ref address) then .refused
        else
          let layers := realm.layers own prototype
          Json.obj <$> readKeys (fun key => readJsonValue stack (getValue layers key))
            (forInKeys layers) []

/-- `readJsonObject`. A refusal is `undefined`. -/
def readJsonObject (stack : ℕ) (value : Value) : Parse Json :=
  if !isRecordLike realm value then .refused else readJsonValue realm stack value

end Walk

/-! ## The walk reads as the schema -/

section WalkReads

variable {realm : Realm}

theorem readItems_eq_accepted {read : Value → Parse Json} {values : List Value}
    {copy out : List Json} :
    readItems read values copy = .accepted out ↔
      ∃ items, values.map read = items.map Parse.accepted ∧ out = copy ++ items := by
  induction values generalizing copy with
  | nil =>
      rw [readItems, Parse.accepted.injEq]
      constructor
      · rintro rfl
        exact ⟨[], rfl, (List.append_nil _).symm⟩
      · rintro ⟨items, hitems, rfl⟩
        rw [List.map_eq_nil_iff.mp hitems.symm, List.append_nil]
  | cons value rest ih =>
      rw [readItems]
      constructor
      · intro h
        split at h
        · next item hitem =>
            obtain ⟨items, hitems, rfl⟩ := ih.mp h
            refine ⟨item :: items, ?_, by rw [List.append_assoc, List.singleton_append]⟩
            rw [List.map_cons, List.map_cons, hitem, hitems]
        · cases h
        · cases h
      · rintro ⟨items, hitems, rfl⟩
        cases items with
        | nil => cases hitems
        | cons item items =>
            rw [List.map_cons, List.map_cons, List.cons.injEq] at hitems
            rw [hitems.1]
            exact ih.mpr ⟨items, hitems.2, by rw [List.append_assoc, List.singleton_append]⟩

/-- What the loop over the keys writes on its copy. -/
def assignEntries (copy entries : List (JsString × Json)) : List (JsString × Json) :=
  entries.foldl (fun copy (e : JsString × Json) =>
    if e.1 = "__proto__" then copy else createProperty copy e.1 e.2) copy

theorem readKeys_eq_accepted {read : JsString → Parse Json} {keys : List JsString}
    {copy out : List (JsString × Json)} :
    readKeys read keys copy = .accepted out ↔
      ∃ values, keys.map read = values.map Parse.accepted ∧
        out = assignEntries copy (keys.zip values) := by
  induction keys generalizing copy with
  | nil =>
      rw [readKeys, Parse.accepted.injEq]
      constructor
      · rintro rfl
        exact ⟨[], rfl, rfl⟩
      · rintro ⟨values, -, rfl⟩
        rfl
  | cons key rest ih =>
      rw [readKeys]
      constructor
      · intro h
        split at h
        · next item hitem =>
            obtain ⟨values, hvalues, rfl⟩ := ih.mp h
            refine ⟨item :: values, ?_, rfl⟩
            rw [List.map_cons, List.map_cons, hitem, hvalues]
        · cases h
        · cases h
      · rintro ⟨values, hvalues, rfl⟩
        cases values with
        | nil => cases hvalues
        | cons item values =>
            rw [List.map_cons, List.map_cons, List.cons.injEq] at hvalues
            rw [hvalues.1]
            exact ih.mpr ⟨values, hvalues.2, rfl⟩

/-- The walk's copy is the object the schema rebuilds. -/
theorem assignEntries_eq_mergeObject (entries : List (JsString × Json)) :
    assignEntries [] entries = Realm.mergeObject entries := by
  unfold assignEntries Realm.mergeObject createObject
  rw [List.foldl_filter]
  congr 1
  funext copy e
  by_cases hproto : e.1 = "__proto__"
  · simp [hproto]
  · simp [hproto]

theorem isRecordLike_iff {address : ℕ} {own : Layer} {prototype : Prototype}
    (hentity : realm.entities[address]? = some (.object own prototype)) :
    isRecordLike realm (.ref address) = true ↔
      realm.getParsedType (.object own prototype) = .object := by
  unfold isRecordLike Realm.getParsedType Realm.entity
  simp only [hentity]
  split_ifs with hthenable hbuiltin
  · simp [hthenable]
  · simp [hbuiltin]
  · rw [Bool.not_eq_true] at hthenable hbuiltin
    simp [hthenable, hbuiltin]

theorem map_comp_eq_iff {α : Type} {f g : α → Parse Json} {xs : List α} {items : List Json}
    (h : ∀ x ∈ xs, ∀ t, f x = .accepted t ↔ g x = .accepted t) :
    xs.map f = items.map Parse.accepted ↔ xs.map g = items.map Parse.accepted := by
  induction xs generalizing items with
  | nil => exact Iff.rfl
  | cons x rest ih =>
      cases items with
      | nil => exact iff_of_false nofun nofun
      | cons item items =>
          simp only [List.map_cons, List.cons.injEq]
          rw [h x List.mem_cons_self item, ih fun y hy => h y (List.mem_cons_of_mem _ hy)]

/-- **The walk accepts what the schema accepts, and reads it as the schema does.** -/
theorem readJsonValue_iff (stack : ℕ) (value : Value) (t : Json) :
    readJsonValue realm stack value = .accepted t ↔
      jsonValueSchema realm stack value = .accepted t := by
  induction stack generalizing value t with
  | zero => exact Iff.rfl
  | succ stack ih =>
      cases value with
      | undefined =>
          exact iff_of_false (Parse.refused_ne_accepted t) (Parse.refused_ne_accepted t)
      | null => exact Iff.rfl
      | bool b => exact Iff.rfl
      | num x => cases x <;> exact Iff.rfl
      | str s => exact Iff.rfl
      | function identity =>
          exact iff_of_false (Parse.refused_ne_accepted t) (Parse.refused_ne_accepted t)
      | foreign identity =>
          exact iff_of_false (Parse.refused_ne_accepted t) (Parse.refused_ne_accepted t)
      | ref address =>
          cases hentity : realm.entities[address]? with
          | none =>
              have hnone : realm.entity (.ref address) = none := hentity
              simp only [readJsonValue, jsonValueSchema, hentity, Realm.onEntity, hnone]
              exact iff_of_false (Parse.refused_ne_accepted t) (Parse.refused_ne_accepted t)
          | some entity =>
              cases entity with
              | array items =>
                  rw [jsonValueSchema_array hentity]
                  simp only [readJsonValue, hentity, Parse.map_eq_accepted, readItems_eq_accepted,
                    List.nil_append, exists_eq_right']
                  have hitems : ∀ out : List Json, items.map (readJsonValue realm stack) =
                      out.map Parse.accepted ↔ items.map (jsonValueSchema realm stack) =
                        out.map Parse.accepted := fun out => map_comp_eq_iff fun v _ t => ih v t
                  simp only [hitems]
              | object own prototype =>
                  rw [jsonValueSchema_object hentity]
                  simp only [recordOf_eq_accepted]
                  by_cases hrecord : realm.getParsedType (.object own prototype) = .object
                  · have hlike := (isRecordLike_iff hentity).mpr hrecord
                    simp only [readJsonValue, hentity, hlike, Bool.not_true, Bool.false_eq_true,
                      if_false, Parse.map_eq_accepted, readKeys_eq_accepted,
                      assignEntries_eq_mergeObject, hrecord, true_and]
                    have hkeys : ∀ values : List Json, (forInKeys (realm.layers own prototype)).map
                        (fun key => readJsonValue realm stack
                          (getValue (realm.layers own prototype) key)) =
                            values.map Parse.accepted ↔
                        (forInKeys (realm.layers own prototype)).map
                        (fun key => jsonValueSchema realm stack
                          (getValue (realm.layers own prototype) key)) =
                            values.map Parse.accepted :=
                      fun values => map_comp_eq_iff fun key _ t => ih _ t
                    simp only [hkeys]
                  · have hlike : isRecordLike realm (.ref address) = false := by
                      rw [Bool.eq_false_iff, Ne, isRecordLike_iff hentity]
                      exact hrecord
                    simp only [readJsonValue, hentity, hlike, hrecord, false_and]
                    exact iff_of_false (Parse.refused_ne_accepted t) fun h => by simp at h

/-- **A JSON field is read as `JsonObjectSchema` reads it.** -/
theorem readJsonObject_iff (stack : ℕ) (value : Value) (t : Json) :
    readJsonObject realm stack value = .accepted t ↔
      jsonObjectSchema realm stack value = .accepted t := by
  cases stack with
  | zero =>
      unfold readJsonObject
      split
      · exact iff_of_false (Parse.refused_ne_accepted t) (by simp [Untrusted.jsonObjectSchema])
      · exact Iff.rfl
  | succ stack =>
      unfold readJsonObject
      rw [Untrusted.jsonObjectSchema, Parse.map_eq_accepted]
      cases hentity : realm.entity value with
      | none =>
          have hlike : isRecordLike realm value = false := by simp only [isRecordLike, hentity]
          simp only [hlike, Realm.onEntity, hentity]
          exact iff_of_false (by simp) (by simp)
      | some entity =>
          cases value with
          | ref address =>
              cases entity with
              | array items =>
                  have hlike : isRecordLike realm (.ref address) = false := by
                    simp only [isRecordLike, hentity]
                  simp only [hlike, Realm.onEntity, hentity, Realm.recordOf]
                  exact iff_of_false (by simp) (by simp)
              | object own prototype =>
                  simp only [Realm.onEntity, hentity]
                  by_cases hrecord : realm.getParsedType (.object own prototype) = .object
                  · rw [(isRecordLike_iff hentity).mpr hrecord, if_neg (by simp), readJsonValue_iff,
                      jsonValueSchema_object hentity]
                  · have hlike : isRecordLike realm (.ref address) = false := by
                      rw [Bool.eq_false_iff, Ne, isRecordLike_iff hentity]
                      exact hrecord
                    rw [hlike, if_pos Bool.not_false]
                    refine iff_of_false (Parse.refused_ne_accepted t) ?_
                    rintro ⟨out, hout, -⟩
                    exact hrecord (recordOf_eq_accepted.mp hout).1
          | _ => cases hentity

end WalkReads

/-! ## Registering -/

/-- The objects there are when the module has been loaded: `BLOB_STAND_IN` is one of them, empty and
frozen. -/
structure Loaded extends Realm where
  standIn : ℕ
  frozen : entities[standIn]? = some (.object [] .ordinary)

/-- `JSON_BLOB_FIELDS`. -/
def jsonBlobFields : List JsString := ["inputSchema", "outputSchema", "metadata"]

/-- A handler as a host passes it. -/
structure HostHandler where
  definition : Value
  resolvesRequirement : Bool
  implementation : ℕ

section Register

variable (loaded : Loaded)

/-- `spreadIsFaithful`. The length of an array is not enumerable. -/
def spreadIsFaithful : Entity → Bool
  | .object own .ordinary =>
    loaded.objectPrototype.enumerableKeys.isEmpty && own.all fun p => p.2.enumerable && !p.2.accessor
  | _ => false

/-- `source[field]`. -/
def readField (source : Entity) (field : JsString) : Value :=
  match source with
  | .object own prototype => getValue (loaded.toRealm.layers own prototype) field
  | .array _ => .undefined

/-- The loop of `readJsonBlobs` over the fields that are left. -/
def readBlobs (stack : ℕ) (read : JsString → Value) :
    List JsString → List (JsString × Json) → Parse (List (JsString × Json))
  | [], blobs => .accepted blobs
  | field :: rest, blobs =>
    if read field = .undefined then readBlobs stack read rest blobs
    else
      match readJsonObject loaded.toRealm stack (read field) with
      | .accepted value => readBlobs stack read rest (blobs ++ [(field, value)])
      | .refused => .refused
      | .overflow => .overflow

/-- `readJsonBlobs`. A refusal is `undefined`. -/
def readJsonBlobs (stack : ℕ) (source : Entity) : Parse (List (JsString × Json)) :=
  readBlobs loaded stack (readField loaded source) jsonBlobFields []

/-- `standInFor`, by its fields. The blobs are asked for a field as any object is. -/
def standInFor (blobs : List (JsString × Json)) : List JsString :=
  jsonBlobFields.filter fun field =>
    (blobs.lookup field).isSome || getValue [loaded.objectPrototype] field ≠ .undefined

/-- `{ ...source, ...standIns }`. -/
def withStandIns (source : Entity) (fields : List JsString) : Entity :=
  match source with
  | .object own _ => .object (own.spread.defineAll fields (.ref loaded.standIn)) .ordinary
  | .array items => .array items

/-- `Object.assign(definition, blobs)`. -/
def assignBlobs (definition : ToolDefinition) (blobs : List (JsString × Json)) : ToolDefinition :=
  { definition with
    inputSchema := (blobs.lookup ("inputSchema" : JsString)).getD definition.inputSchema
    outputSchema := (blobs.lookup ("outputSchema" : JsString)).or definition.outputSchema
    metadata := (blobs.lookup ("metadata" : JsString)).or definition.metadata }

/-- What `register` clones: the contract's reading, of the value itself or of its spread. -/
def parseDefinition (stack : ℕ) (source : Entity) : Parse ToolDefinition :=
  match if spreadIsFaithful loaded source then readJsonBlobs loaded stack source else .refused with
  | .overflow => .overflow
  | .refused => Untrusted.toolDefinitionSchema loaded.toRealm stack source
  | .accepted blobs =>
    (fun definition => assignBlobs definition blobs) <$>
      Untrusted.toolDefinitionSchema loaded.toRealm stack
        (withStandIns loaded source (standInFor loaded blobs))

/-- The handler that is kept. -/
def registered (handler : HostHandler) (definition : ToolDefinition) : ToolHandler where
  definition := cloneDefinition definition
  resolvesRequirement := handler.resolvesRequirement
  implementation := handler.implementation

/-- `register`. It throws in other ways too where the stack runs out. -/
def register (stack : ℕ) (registry : ToolRegistry) (handler : HostHandler) :
    Option (Except RegistrationError ToolRegistry) :=
  match loaded.toRealm.entity handler.definition with
  | none => some (.error .notTheContract)
  | some source =>
    match parseDefinition loaded stack source with
    | .overflow => none
    | .refused => some (.error .notTheContract)
    | .accepted parsed =>
      if parsed.name.length = 0 then some (.error .emptyName)
      else if h : registry.has parsed.name = false then
        some (.ok (registry.add (registered handler parsed) h))
      else some (.error (.duplicate parsed.name))

/-- The fields a definition sets to `undefined` over a value that `Object.prototype` has, where its
spread is faithful. -/
def shadowedFields (source : Entity) : List JsString :=
  if spreadIsFaithful loaded source then
    jsonBlobFields.filter fun field =>
      readField loaded source field = .undefined ∧
        getValue [loaded.objectPrototype] field ≠ .undefined
  else []

/-- The definition with an empty object in each of the fields. -/
def withEmpty (source : Entity) (fields : List JsString) : Entity :=
  match source with
  | .object own prototype => .object (own.defineAll fields (.ref loaded.standIn)) prototype
  | .array items => .array items

/-- The registration is the contract's: what is accepted is what the contract accepts under a name
that is new, and what is kept is the clone of the contract's reading. -/
def RegistersAsContract (stack : ℕ) (registry : ToolRegistry) (handler : HostHandler) : Prop :=
  ∀ registry', register loaded stack registry handler = some (.ok registry') ↔
    ∃ definition, loaded.toRealm.onEntity
        (Untrusted.toolDefinitionSchema loaded.toRealm stack) handler.definition =
          .accepted definition ∧
      ∃ h : registry.has definition.name = false,
        registry' = registry.add (registered handler definition) h

end Register

end SharedOS.Kernel.Registration
