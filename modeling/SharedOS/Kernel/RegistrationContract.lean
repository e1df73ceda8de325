/-
SharedOS.Kernel.RegistrationContract — the short way of registering a tool against the contract.

A faithful spread and the definition itself list the same keys and answer the same reads, so the
contract tells them apart only by the fields that hold the stand-in. Where the walk has read a field
the reading is put back over the empty object (`readDefinition_standIns`). Where nothing was read,
the empty object stays, and the definition that is kept is the one the contract reads of the
definition with an empty object in those fields (`parseDefinition_iff`).
-/
import SharedOS.Kernel.Registration

namespace SharedOS.Kernel.Registration

open SharedOS.Foundation SharedOS.Contracts SharedOS.Contracts.Untrusted

variable {loaded : Loaded} {stack : ℕ}

/-! ## A faithful spread -/

/-- What spreads faithfully: a plain object of plain properties, over a prototype that lists
nothing. -/
theorem spreadIsFaithful_iff {source : Entity} :
    spreadIsFaithful loaded source = true ↔
      ∃ own, source = .object own .ordinary ∧ own.Plain ∧
        loaded.objectPrototype.enumerableKeys = [] := by
  cases source with
  | array items => exact iff_of_false nofun nofun
  | object own prototype =>
      cases prototype with
      | chain layers builtin => exact iff_of_false nofun nofun
      | ordinary =>
          simp only [spreadIsFaithful, Bool.and_eq_true, List.isEmpty_iff, List.all_eq_true,
            Bool.not_eq_true', Entity.object.injEq, and_true, exists_eq_left']
          rw [and_comm]
          refine and_congr_left fun _ => forall₂_congr fun p _ => ?_
          obtain ⟨key, value, enumerable, accessor⟩ := p
          simp [Slot.data]

/-- The source of a faithful spread. -/
structure Faithful (loaded : Loaded) (own : Layer) : Prop where
  plain : own.Plain
  unlisted : loaded.objectPrototype.enumerableKeys = []

variable {own : Layer}

/-- The stand-ins are laid over the spread as they are over the object itself. -/
theorem withStandIns_eq_withEmpty (h : Faithful loaded own) (fields : List JsString) :
    withStandIns loaded (.object own .ordinary) fields =
      withEmpty loaded (.object own .ordinary) fields := by
  rw [withStandIns, withEmpty, spread_of_plain h.plain]

theorem readField_withEmpty (fields : List JsString) (key : JsString) :
    readField loaded (withEmpty loaded (.object own .ordinary) fields) key =
      if key ∈ fields then .ref loaded.standIn
      else readField loaded (.object own .ordinary) key :=
  getValue_defineAll own [loaded.objectPrototype] fields (.ref loaded.standIn) key

/-- What the short way reads of the definition, with a stand-in in each of the fields. -/
abbrev readWith (loaded : Loaded) (own : Layer) (fields : List JsString) : JsString → Value :=
  readField loaded (withEmpty loaded (.object own .ordinary) fields)

theorem readWith_of_not_mem {fields : List JsString} {key : JsString} (h : key ∉ fields) :
    readWith loaded own fields key = readField loaded (.object own .ordinary) key := by
  rw [readWith, readField_withEmpty, if_neg h]

theorem readWith_of_mem {fields : List JsString} {key : JsString} (h : key ∈ fields) :
    readWith loaded own fields key = .ref loaded.standIn := by
  rw [readWith, readField_withEmpty, if_pos h]

/-- What the contract takes for an object with no field it does not know. -/
structure Recognised (loaded : Loaded) (own : Layer) : Prop where
  object : loaded.toRealm.getParsedType (.object own .ordinary) = .object
  known : ∀ key ∈ own.keys, key ∈ definitionFields

theorem jsonBlobFields_subset : ∀ key ∈ jsonBlobFields, key ∈ definitionFields := by decide

/-- Neither half of a thenable is a field. -/
theorem getParsedType_withEmpty {fields : List JsString}
    (hfields : ∀ key ∈ fields, key ∈ jsonBlobFields) :
    loaded.toRealm.getParsedType (withEmpty loaded (.object own .ordinary) fields) =
      loaded.toRealm.getParsedType (.object own .ordinary) := by
  have hread : ∀ key ∉ jsonBlobFields,
      readField loaded (withEmpty loaded (.object own .ordinary) fields) key =
        readField loaded (.object own .ordinary) key := by
    intro key hkey
    rw [readField_withEmpty, if_neg fun h => hkey (hfields key h)]
  have hthen := hread "then" (by decide)
  have hcatch := hread "catch" (by decide)
  simp only [readField, withEmpty] at hthen hcatch
  simp only [Realm.getParsedType, withEmpty, hthen, hcatch]

/-- **The contract reads a faithful definition with stand-ins field by field.** -/
theorem toolDefinitionSchema_withEmpty (h : Faithful loaded own) {fields : List JsString}
    (hfields : ∀ key ∈ fields, key ∈ jsonBlobFields) {d : ToolDefinition} :
    Untrusted.toolDefinitionSchema loaded.toRealm stack
        (withEmpty loaded (.object own .ordinary) fields) = .accepted d ↔
      Recognised loaded own ∧
        readDefinition loaded.toRealm stack (readWith loaded own fields) = .accepted d ∧
        annotationsAgree d.readWrite d.annotations = true := by
  have htype : loaded.toRealm.getParsedType (withEmpty loaded (.object own .ordinary) fields) =
      loaded.toRealm.getParsedType (.object own .ordinary) := getParsedType_withEmpty hfields
  have hkeys : (∀ key ∈ forInKeys (loaded.toRealm.layers
        (own.defineAll fields (.ref loaded.standIn)) .ordinary), key ∈ definitionFields) ↔
      ∀ key ∈ own.keys, key ∈ definitionFields := by
    show (∀ key ∈ forInKeys [own.defineAll fields (.ref loaded.standIn), loaded.objectPrototype],
      key ∈ definitionFields) ↔ _
    rw [forInKeys_of_unlisted h.unlisted, enumerableKeys_of_plain (plain_defineAll h.plain _ _)]
    constructor
    · intro hall key hkey
      exact hall key (mem_keys_defineAll.mpr (.inr hkey))
    · intro hall key hkey
      rcases mem_keys_defineAll.mp hkey with hfield | hown
      · exact jsonBlobFields_subset key (hfields key hfield)
      · exact hall key hown
  rw [withEmpty] at htype ⊢
  rw [toolDefinitionSchema_eq_accepted, htype, hkeys]
  constructor
  · rintro ⟨hobject, hknown, hread, hagree⟩
    exact ⟨⟨hobject, hknown⟩, hread, hagree⟩
  · rintro ⟨hrecognised, hread, hagree⟩
    exact ⟨hrecognised.object, hrecognised.known, hread, hagree⟩

/-! ## The stand-in -/

/-- Wherever the contract takes the definition for an object, the stand-in is an empty object to
it: the keys it asks of both are answered by `Object.prototype` alone. -/
theorem jsonObjectSchema_standIn (h : Faithful loaded own) (hrecognised : Recognised loaded own) :
    Untrusted.jsonObjectSchema loaded.toRealm (stack + 1) (.ref loaded.standIn) =
      .accepted (.obj []) := by
  have hinherited : ∀ key ∉ definitionFields,
      getValue [own, loaded.objectPrototype] key = getValue [[], loaded.objectPrototype] key := by
    intro key hkey
    have hnone : own.lookup key = none := by
      refine List.lookup_eq_none_iff.mpr fun p hp => bne_iff_ne.mpr ?_
      rintro rfl
      exact hkey (hrecognised.known _ (List.mem_map_of_mem hp))
    rw [getValue_cons own, getValue_cons [], hnone, List.lookup_nil]
  have hobject := hrecognised.object
  simp only [Realm.getParsedType, Realm.layers, hinherited "then" (by decide),
    hinherited "catch" (by decide)] at hobject
  have hstandIn : loaded.toRealm.getParsedType (.object [] .ordinary) = .object := by
    simp only [Realm.getParsedType, Realm.layers]
    exact hobject
  have hentity : loaded.toRealm.entity (.ref loaded.standIn) = some (.object [] .ordinary) :=
    loaded.frozen
  have hempty : loaded.toRealm.recordOf (jsonValueSchema loaded.toRealm stack)
      (.object [] .ordinary) = .accepted [] := by
    have hkeys : forInKeys (loaded.toRealm.layers [] .ordinary) = [] :=
      forInKeys_of_unlisted h.unlisted
    refine recordOf_eq_accepted.mpr ⟨hstandIn, [], ?_, ?_⟩
    · rw [hkeys, List.map_nil, List.map_nil]
    · rw [hkeys]
      rfl
  rw [Untrusted.jsonObjectSchema, Realm.onEntity, hentity]
  exact Parse.map_eq_accepted.mpr ⟨[], hempty, rfl⟩

/-- Without stack nothing is accepted: the input schema is always read. -/
theorem toolDefinitionSchema_zero (realm : Realm) (entity : Entity) (d : ToolDefinition) :
    Untrusted.toolDefinitionSchema realm 0 entity ≠ .accepted d := by
  intro h
  cases entity with
  | array items => cases h
  | object own prototype =>
      obtain ⟨-, -, hread, -⟩ := toolDefinitionSchema_eq_accepted.mp h
      obtain ⟨-, -, -, -, -, hinput, -⟩ := readDefinition_eq_accepted.mp hread
      cases hinput

/-! ## The blobs -/

/-- What the contract makes of a JSON field that may be absent. -/
abbrev readBlob (loaded : Loaded) (stack : ℕ) (value : Value) : Parse (Option Json) :=
  optionalValue (Untrusted.jsonObjectSchema loaded.toRealm stack) value

theorem jsonObjectSchema_iff_readBlob {value : Value} {t : Json} :
    Untrusted.jsonObjectSchema loaded.toRealm stack value = .accepted t ↔
      readBlob loaded stack value = .accepted (some t) := by
  cases value with
  | undefined =>
      cases stack with
      | zero => exact iff_of_false nofun nofun
      | succ stack => exact iff_of_false nofun nofun
  | _ =>
      refine Iff.symm (Parse.map_eq_accepted.trans ?_)
      simp only [Option.some.injEq, exists_eq_right']

theorem readBlob_of_ne_undefined {value : Value} (h : value ≠ .undefined) (o : Option Json) :
    readBlob loaded stack value = .accepted o ↔
      ∃ t, readJsonObject loaded.toRealm stack value = .accepted t ∧ o = some t := by
  simp only [readJsonObject_iff]
  cases value with
  | undefined => exact absurd rfl h
  | _ => exact Parse.map_eq_accepted

/-- The walk over the fields ends when each field that has a value is read. -/
theorem readBlobs_of_forall {read : JsString → Value} {fields : List JsString}
    {blobs : List (JsString × Json)}
    (h : ∀ field ∈ fields, ∃ o, readBlob loaded stack (read field) = .accepted o) :
    ∃ out, readBlobs loaded stack read fields blobs = .accepted out := by
  induction fields generalizing blobs with
  | nil => exact ⟨blobs, rfl⟩
  | cons field rest ih =>
      have hrest := fun f hf => h f (List.mem_cons_of_mem _ hf)
      rw [readBlobs]
      by_cases hundefined : read field = .undefined
      · rw [if_pos hundefined]
        exact ih hrest
      · obtain ⟨o, ho⟩ := h field List.mem_cons_self
        obtain ⟨t, ht, -⟩ := (readBlob_of_ne_undefined hundefined o).mp ho
        rw [if_neg hundefined, ht]
        exact ih hrest

/-- **The blobs are the contract's readings of the fields.** -/
theorem lookup_readBlobs {read : JsString → Value} {fields : List JsString}
    {blobs out : List (JsString × Json)} (hnodup : fields.Nodup)
    (hfresh : ∀ field ∈ fields, blobs.lookup field = none)
    (h : readBlobs loaded stack read fields blobs = .accepted out) :
    (∀ field ∈ fields, readBlob loaded stack (read field) = .accepted (out.lookup field)) ∧
      ∀ key ∉ fields, out.lookup key = blobs.lookup key := by
  induction fields generalizing blobs with
  | nil =>
      cases h
      exact ⟨nofun, fun _ _ => rfl⟩
  | cons field rest ih =>
      obtain ⟨hfield, hrest⟩ := List.nodup_cons.mp hnodup
      rw [readBlobs] at h
      by_cases hundefined : read field = .undefined
      · rw [if_pos hundefined] at h
        obtain ⟨hread, hother⟩ := ih hrest (fun f hf => hfresh f (List.mem_cons_of_mem _ hf)) h
        refine ⟨?_, fun key hkey => hother key fun hmem => hkey (List.mem_cons_of_mem _ hmem)⟩
        intro f hf
        rcases List.mem_cons.mp hf with rfl | hf
        · rw [hundefined, hother f hfield, hfresh f List.mem_cons_self]
          rfl
        · exact hread f hf
      · rw [if_neg hundefined] at h
        split at h
        · next value hvalue =>
            have hlookup : ∀ key, (blobs ++ [(field, value)]).lookup key =
                (blobs.lookup key).or (if key = field then some value else none) := by
              intro key
              rw [List.lookup_append, List.lookup_cons, List.lookup_nil]
              by_cases hkey : key = field
              · rw [if_pos hkey, hkey, beq_self_eq_true]
              · rw [if_neg hkey, beq_false_of_ne hkey]
            have hne : ∀ f ∈ rest, f ≠ field := fun f hf heq => hfield (heq ▸ hf)
            obtain ⟨hread, hother⟩ := ih hrest (fun f hf => by
              rw [hlookup, hfresh f (List.mem_cons_of_mem _ hf), if_neg (hne f hf)]
              rfl) h
            constructor
            · intro f hf
              rcases List.mem_cons.mp hf with rfl | hf
              · rw [hother f hfield, hlookup, hfresh f List.mem_cons_self, if_pos rfl]
                exact (readBlob_of_ne_undefined hundefined _).mpr ⟨value, hvalue, rfl⟩
              · exact hread f hf
            · intro key hkey
              rw [List.mem_cons, not_or] at hkey
              rw [hother key hkey.2, hlookup, if_neg hkey.1, Option.or_none]
        · cases h
        · cases h

/-! ## Putting the blobs back -/

theorem readBlob_eq_none {value : Value} :
    readBlob loaded stack value = .accepted none ↔ value = .undefined := by
  constructor
  · intro h
    by_contra hne
    obtain ⟨t, -, hnone⟩ := (readBlob_of_ne_undefined hne none).mp h
    cases hnone
  · rintro rfl
    rfl

theorem mem_standInFor {blobs : List (JsString × Json)} {field : JsString} :
    field ∈ standInFor loaded blobs ↔ field ∈ jsonBlobFields ∧
      ((blobs.lookup field).isSome = true ∨
        getValue [loaded.objectPrototype] field ≠ .undefined) := by
  simp only [standInFor, List.mem_filter, Bool.or_eq_true, decide_eq_true_eq]

theorem shadowedFields_subset {source : Entity} :
    ∀ field ∈ shadowedFields loaded source, field ∈ jsonBlobFields := by
  intro field hfield
  unfold shadowedFields at hfield
  split at hfield
  · exact List.mem_of_mem_filter hfield
  · cases hfield

theorem spreadIsFaithful_of_faithful (h : Faithful loaded own) :
    spreadIsFaithful loaded (.object own .ordinary) = true :=
  spreadIsFaithful_iff.mpr ⟨own, rfl, h.plain, h.unlisted⟩

theorem mem_shadowedFields (h : Faithful loaded own) {field : JsString} :
    field ∈ shadowedFields loaded (.object own .ordinary) ↔ field ∈ jsonBlobFields ∧
      readField loaded (.object own .ordinary) field = .undefined ∧
        getValue [loaded.objectPrototype] field ≠ .undefined := by
  simp only [shadowedFields, spreadIsFaithful_of_faithful h, if_true, List.mem_filter,
    decide_eq_true_eq]

/-- The blobs are the contract's readings of the definition's JSON fields. -/
def ReadAs (loaded : Loaded) (stack : ℕ) (own : Layer) (blobs : List (JsString × Json)) : Prop :=
  ∀ field ∈ jsonBlobFields, readBlob loaded stack (readField loaded (.object own .ordinary) field) =
    .accepted (blobs.lookup field)

/-- **The fields that hold a stand-in and are not put back are the shadowed ones.** -/
theorem blob_cases (h : Faithful loaded own) {blobs : List (JsString × Json)}
    (hblobs : ReadAs loaded stack own blobs) {field : JsString} (hfield : field ∈ jsonBlobFields) :
    (∃ t, blobs.lookup field = some t ∧
        readBlob loaded stack (readWith loaded own (shadowedFields loaded (.object own .ordinary))
          field) = .accepted (some t) ∧
        readWith loaded own (standInFor loaded blobs) field = .ref loaded.standIn) ∨
      (blobs.lookup field = none ∧
        readWith loaded own (standInFor loaded blobs) field =
          readWith loaded own (shadowedFields loaded (.object own .ordinary)) field) := by
  have hread := hblobs field hfield
  cases hlookup : blobs.lookup field with
  | some t =>
      rw [hlookup] at hread
      have hstandIn : field ∈ standInFor loaded blobs :=
        mem_standInFor.mpr ⟨hfield, .inl (by rw [hlookup, Option.isSome_some])⟩
      have hshown : field ∉ shadowedFields loaded (.object own .ordinary) := by
        intro hmem
        rw [((mem_shadowedFields h).mp hmem).2.1] at hread
        cases hread
      refine .inl ⟨t, rfl, ?_, readWith_of_mem hstandIn⟩
      rw [readWith_of_not_mem hshown]
      exact hread
  | none =>
      rw [hlookup] at hread
      have hundefined := readBlob_eq_none.mp hread
      refine .inr ⟨rfl, ?_⟩
      by_cases hinherited : getValue [loaded.objectPrototype] field = .undefined
      · have hstandIn : field ∉ standInFor loaded blobs := by
          intro hmem
          rcases (mem_standInFor.mp hmem).2 with hsome | hne
          · rw [hlookup] at hsome
            cases hsome
          · exact hne hinherited
        have hshown : field ∉ shadowedFields loaded (.object own .ordinary) := fun hmem =>
          ((mem_shadowedFields h).mp hmem).2.2 hinherited
        rw [readWith_of_not_mem hstandIn, readWith_of_not_mem hshown]
      · have hstandIn : field ∈ standInFor loaded blobs :=
          mem_standInFor.mpr ⟨hfield, .inr hinherited⟩
        have hshadowed : field ∈ shadowedFields loaded (.object own .ordinary) :=
          (mem_shadowedFields h).mpr ⟨hfield, hundefined, hinherited⟩
        rw [readWith_of_mem hstandIn, readWith_of_mem hshadowed]

section PutBack

variable {blobs : List (JsString × Json)}

/-- A field that may be absent, put back. -/
theorem readBlob_putBack (h : Faithful loaded own) (hrecognised : Recognised loaded own)
    (hblobs : ReadAs loaded (stack + 1) own blobs) {field : JsString}
    (hfield : field ∈ jsonBlobFields) (o : Option Json) :
    readBlob loaded (stack + 1)
        (readWith loaded own (shadowedFields loaded (.object own .ordinary)) field) = .accepted o ↔
      ∃ kept, readBlob loaded (stack + 1) (readWith loaded own (standInFor loaded blobs) field) =
          .accepted kept ∧ o = (blobs.lookup field).or kept := by
  have hempty : readBlob loaded (stack + 1) (.ref loaded.standIn) = .accepted (some (.obj [])) :=
    jsonObjectSchema_iff_readBlob.mp (jsonObjectSchema_standIn h hrecognised)
  rcases blob_cases h hblobs hfield with ⟨t, hlookup, hread, hstandIn⟩ | ⟨hlookup, hsame⟩
  · rw [hread, hstandIn, hempty, hlookup]
    simp [eq_comm]
  · rw [hsame, hlookup]
    simp

/-- A required field, put back. -/
theorem jsonObjectSchema_putBack (h : Faithful loaded own) (hrecognised : Recognised loaded own)
    (hblobs : ReadAs loaded (stack + 1) own blobs) {field : JsString}
    (hfield : field ∈ jsonBlobFields) (t : Json) :
    Untrusted.jsonObjectSchema loaded.toRealm (stack + 1)
        (readWith loaded own (shadowedFields loaded (.object own .ordinary)) field) = .accepted t ↔
      ∃ kept, Untrusted.jsonObjectSchema loaded.toRealm (stack + 1)
          (readWith loaded own (standInFor loaded blobs) field) = .accepted kept ∧
        t = (blobs.lookup field).getD kept := by
  have hempty : Untrusted.jsonObjectSchema loaded.toRealm (stack + 1) (.ref loaded.standIn) =
      .accepted (.obj []) := jsonObjectSchema_standIn h hrecognised
  rcases blob_cases h hblobs hfield with ⟨u, hlookup, hread, hstandIn⟩ | ⟨hlookup, hsame⟩
  · rw [jsonObjectSchema_iff_readBlob, hread, hstandIn, hempty, hlookup]
    simp [eq_comm]
  · rw [hsame, hlookup]
    simp

/-- **The blobs put back over the stand-ins make the contract's reading.** -/
theorem readDefinition_standIns (h : Faithful loaded own) (hrecognised : Recognised loaded own)
    (hblobs : ReadAs loaded (stack + 1) own blobs) {d : ToolDefinition} :
    readDefinition loaded.toRealm (stack + 1)
        (readWith loaded own (shadowedFields loaded (.object own .ordinary))) = .accepted d ↔
      ∃ parsed, readDefinition loaded.toRealm (stack + 1)
          (readWith loaded own (standInFor loaded blobs)) = .accepted parsed ∧
        d = assignBlobs parsed blobs := by
  have hother : ∀ key ∉ jsonBlobFields, readWith loaded own (standInFor loaded blobs) key =
      readWith loaded own (shadowedFields loaded (.object own .ordinary)) key := by
    intro key hkey
    rw [readWith_of_not_mem fun hmem => hkey (mem_standInFor.mp hmem).1,
      readWith_of_not_mem fun hmem => hkey (shadowedFields_subset key hmem)]
  have hinput := jsonObjectSchema_putBack h hrecognised hblobs
    (by decide : ("inputSchema" : JsString) ∈ jsonBlobFields)
  have houtput := readBlob_putBack h hrecognised hblobs
    (by decide : ("outputSchema" : JsString) ∈ jsonBlobFields)
  have hmetadata := readBlob_putBack h hrecognised hblobs
    (by decide : ("metadata" : JsString) ∈ jsonBlobFields)
  simp only [readDefinition_eq_accepted, hother "name" (by decide),
    hother "description" (by decide), hother "namespace" (by decide), hother "source" (by decide),
    hother "readWrite" (by decide), hother "requiredCapability" (by decide),
    hother "annotations" (by decide), hinput, houtput, hmetadata]
  constructor
  · rintro ⟨hname, hdescription, hnamespace, hsource, hreadWrite, ⟨inputSchema, hkept, hinputEq⟩,
      ⟨outputSchema, hkeptOutput, houtputEq⟩, hrequired, hannotations,
      ⟨metadata, hkeptMetadata, hmetadataEq⟩⟩
    refine ⟨{ d with
      inputSchema := inputSchema, outputSchema := outputSchema, metadata := metadata },
      ⟨hname, hdescription, hnamespace, hsource, hreadWrite, hkept, hkeptOutput, hrequired,
        hannotations, hkeptMetadata⟩, ?_⟩
    rw [assignBlobs, ← hinputEq, ← houtputEq, ← hmetadataEq]
  · rintro ⟨parsed, ⟨hname, hdescription, hnamespace, hsource, hreadWrite, hkept, hkeptOutput,
      hrequired, hannotations, hkeptMetadata⟩, rfl⟩
    exact ⟨hname, hdescription, hnamespace, hsource, hreadWrite, ⟨_, hkept, rfl⟩,
      ⟨_, hkeptOutput, rfl⟩, hrequired, hannotations, ⟨_, hkeptMetadata, rfl⟩⟩

end PutBack

/-! ## What is parsed -/

/-- A definition that is read has its JSON fields read. -/
theorem readBlob_of_readDefinition {read : JsString → Value} {d : ToolDefinition}
    (h : readDefinition loaded.toRealm stack read = .accepted d) :
    ∀ field ∈ jsonBlobFields, ∃ o, readBlob loaded stack (read field) = .accepted o := by
  obtain ⟨-, -, -, -, -, hinput, houtput, -, -, hmetadata⟩ := readDefinition_eq_accepted.mp h
  intro field hfield
  simp only [jsonBlobFields, List.mem_cons, List.not_mem_nil, or_false] at hfield
  rcases hfield with rfl | rfl | rfl
  · exact ⟨_, jsonObjectSchema_iff_readBlob.mp hinput⟩
  · exact ⟨_, houtput⟩
  · exact ⟨_, hmetadata⟩

/-- Where the contract accepts the definition, or the one with an empty object in fields that are
undefined, the walk vouches for the blobs. -/
theorem readJsonBlobs_of_accepted (h : Faithful loaded own) {fields : List JsString}
    (hfields : ∀ field ∈ fields, field ∈ jsonBlobFields ∧
      readField loaded (.object own .ordinary) field = .undefined) {d : ToolDefinition}
    (haccepted : Untrusted.toolDefinitionSchema loaded.toRealm stack
      (withEmpty loaded (.object own .ordinary) fields) = .accepted d) :
    ∃ blobs, readJsonBlobs loaded stack (.object own .ordinary) = .accepted blobs := by
  obtain ⟨-, hread, -⟩ :=
    (toolDefinitionSchema_withEmpty h fun field hfield => (hfields field hfield).1).mp haccepted
  apply readBlobs_of_forall
  intro field hfield
  by_cases hmem : field ∈ fields
  · exact ⟨none, readBlob_eq_none.mpr (hfields field hmem).2⟩
  · obtain ⟨o, ho⟩ := readBlob_of_readDefinition hread field hfield
    refine ⟨o, ?_⟩
    rw [← readWith_of_not_mem hmem]
    exact ho

theorem readAs_of_readJsonBlobs {blobs : List (JsString × Json)}
    (h : readJsonBlobs loaded stack (.object own .ordinary) = .accepted blobs) :
    ReadAs loaded stack own blobs :=
  (lookup_readBlobs (by decide) (fun _ _ => List.lookup_nil) h).1

theorem withEmpty_nil (source : Entity) : withEmpty loaded source [] = source := by
  cases source with
  | array items => rfl
  | object own prototype => rfl

/-- On a faithful spread. -/
theorem parseDefinition_faithful (h : Faithful loaded own) {d : ToolDefinition} :
    parseDefinition loaded (stack + 1) (.object own .ordinary) = .accepted d ↔
      Untrusted.toolDefinitionSchema loaded.toRealm (stack + 1)
        (withEmpty loaded (.object own .ordinary)
          (shadowedFields loaded (.object own .ordinary))) = .accepted d := by
  have hshadowed : ∀ field ∈ shadowedFields loaded (.object own .ordinary),
      field ∈ jsonBlobFields ∧ readField loaded (.object own .ordinary) field = .undefined :=
    fun field hfield => ⟨shadowedFields_subset field hfield,
      ((mem_shadowedFields h).mp hfield).2.1⟩
  rw [parseDefinition, if_pos (spreadIsFaithful_of_faithful h)]
  cases hwalk : readJsonBlobs loaded (stack + 1) (.object own .ordinary) with
  | overflow =>
      refine iff_of_false nofun fun haccepted => ?_
      obtain ⟨blobs, hblobs⟩ := readJsonBlobs_of_accepted h hshadowed haccepted
      rw [hwalk] at hblobs
      cases hblobs
  | refused =>
      -- The contract reads what the walk would not vouch for, and refuses it either way.
      refine iff_of_false (fun haccepted => ?_) fun haccepted => ?_
      · rw [← withEmpty_nil (.object own .ordinary)] at haccepted
        obtain ⟨blobs, hblobs⟩ := readJsonBlobs_of_accepted h (List.forall_mem_nil _) haccepted
        rw [hwalk] at hblobs
        cases hblobs
      · obtain ⟨blobs, hblobs⟩ := readJsonBlobs_of_accepted h hshadowed haccepted
        rw [hwalk] at hblobs
        cases hblobs
  | accepted blobs =>
      have hblobs : ReadAs loaded (stack + 1) own blobs := readAs_of_readJsonBlobs hwalk
      have hstandIns : ∀ field ∈ standInFor loaded blobs, field ∈ jsonBlobFields :=
        fun field hfield => (mem_standInFor.mp hfield).1
      rw [Parse.map_eq_accepted, toolDefinitionSchema_withEmpty h shadowedFields_subset]
      simp only [withStandIns_eq_withEmpty h, toolDefinitionSchema_withEmpty h hstandIns]
      constructor
      · rintro ⟨parsed, ⟨hrecognised, hread, hagree⟩, rfl⟩
        exact ⟨hrecognised,
          (readDefinition_standIns h hrecognised hblobs).mpr ⟨parsed, hread, rfl⟩, hagree⟩
      · rintro ⟨hrecognised, hread, hagree⟩
        obtain ⟨parsed, hparsed, rfl⟩ := (readDefinition_standIns h hrecognised hblobs).mp hread
        exact ⟨parsed, ⟨hrecognised, hparsed, hagree⟩, rfl⟩

theorem parseDefinition_zero (source : Entity) (d : ToolDefinition) :
    parseDefinition loaded 0 source ≠ .accepted d := by
  intro h
  unfold parseDefinition at h
  split at h
  · cases h
  · exact toolDefinitionSchema_zero _ _ _ h
  · obtain ⟨parsed, hparsed, -⟩ := Parse.map_eq_accepted.mp h
    exact toolDefinitionSchema_zero _ _ _ hparsed

/-- **What is parsed is the contract's reading of the definition with an empty object in each
shadowed field.** -/
theorem parseDefinition_iff {source : Entity} {d : ToolDefinition} :
    parseDefinition loaded stack source = .accepted d ↔
      Untrusted.toolDefinitionSchema loaded.toRealm stack
        (withEmpty loaded source (shadowedFields loaded source)) = .accepted d := by
  cases stack with
  | zero =>
      exact iff_of_false (parseDefinition_zero source d) (toolDefinitionSchema_zero _ _ _)
  | succ stack =>
      by_cases hfaithful : spreadIsFaithful loaded source = true
      · obtain ⟨own, rfl, hplain, hunlisted⟩ := spreadIsFaithful_iff.mp hfaithful
        exact parseDefinition_faithful ⟨hplain, hunlisted⟩
      · rw [parseDefinition, if_neg hfaithful, shadowedFields, if_neg hfaithful, withEmpty_nil]

/-! ## What is registered -/

theorem name_ne_empty {realm : Realm} {entity : Entity} {d : ToolDefinition}
    (h : Untrusted.toolDefinitionSchema realm stack entity = .accepted d) : d.name.length ≠ 0 := by
  cases entity with
  | array items => cases h
  | object own prototype =>
      obtain ⟨-, -, hread, -⟩ := toolDefinitionSchema_eq_accepted.mp h
      have hname := (readDefinition_eq_accepted.mp hread).1
      cases hvalue : getValue (realm.layers own prototype) "name" with
      | str s =>
          rw [hvalue, onText, toolNameSchema] at hname
          split at hname
          · next hbounds =>
              cases hname
              omega
          · cases hname
      | _ =>
          rw [hvalue] at hname
          cases hname

/-- A registration succeeds with what was parsed, under a name that is new. -/
theorem register_eq_ok {registry registry' : ToolRegistry} {handler : HostHandler} :
    register loaded stack registry handler = some (.ok registry') ↔
      ∃ source, loaded.toRealm.entity handler.definition = some source ∧
        ∃ parsed, parseDefinition loaded stack source = .accepted parsed ∧
          ∃ h : registry.has parsed.name = false,
            registry' = registry.add (registered handler parsed) h := by
  unfold register
  cases hentity : loaded.toRealm.entity handler.definition with
  | none =>
      refine iff_of_false (fun h => ?_) fun h => ?_
      · cases h
      · obtain ⟨source, hsource, -⟩ := h
        cases hsource
  | some source =>
      simp only [Option.some.injEq, exists_eq_left']
      cases hparsed : parseDefinition loaded stack source with
      | overflow =>
          refine iff_of_false nofun ?_
          rintro ⟨parsed, h, -⟩
          cases h
      | refused =>
          refine iff_of_false nofun ?_
          rintro ⟨parsed, h, -⟩
          cases h
      | accepted parsed =>
          have hname := name_ne_empty (parseDefinition_iff.mp hparsed)
          simp only [if_neg hname, Parse.accepted.injEq, exists_eq_left']
          by_cases hnew : registry.has parsed.name = false
          · simp only [dif_pos hnew, Option.some.injEq, Except.ok.injEq, exists_prop_of_true hnew]
            exact eq_comm
          · rw [dif_neg hnew]
            refine iff_of_false nofun ?_
            rintro ⟨h, -⟩
            exact hnew h

/-- A blob is absent exactly where the value is `undefined`. -/
theorem isSome_of_readBlob {value : Value} {o : Option Json}
    (h : readBlob loaded stack value = .accepted o) : o.isSome = true ↔ value ≠ .undefined := by
  cases o with
  | none => exact iff_of_false nofun fun hne => hne (readBlob_eq_none.mp h)
  | some t =>
      refine iff_of_true rfl ?_
      rintro rfl
      cases h

theorem toolDefinitionSchema_faithful (h : Faithful loaded own) {d : ToolDefinition}
    (hd : Untrusted.toolDefinitionSchema loaded.toRealm stack (.object own .ordinary) =
      .accepted d) :
    Recognised loaded own ∧
      readDefinition loaded.toRealm stack (readField loaded (.object own .ordinary)) =
        .accepted d ∧ annotationsAgree d.readWrite d.annotations = true := by
  rw [← withEmpty_nil (.object own .ordinary)] at hd
  exact (toolDefinitionSchema_withEmpty h (List.forall_mem_nil _)).mp hd

/-- A JSON field that is read is read where it is shadowed too. -/
theorem readBlob_shadowed (h : Faithful loaded own) (hrecognised : Recognised loaded own)
    {field : JsString} {o : Option Json}
    (ho : readBlob loaded (stack + 1) (readField loaded (.object own .ordinary) field) =
      .accepted o) :
    ∃ patched, readBlob loaded (stack + 1)
      (readWith loaded own (shadowedFields loaded (.object own .ordinary)) field) =
        .accepted patched := by
  by_cases hmem : field ∈ shadowedFields loaded (.object own .ordinary)
  · rw [readWith_of_mem hmem]
    exact ⟨_, jsonObjectSchema_iff_readBlob.mp (jsonObjectSchema_standIn h hrecognised)⟩
  · rw [readWith_of_not_mem hmem]
    exact ⟨o, ho⟩

/-- **What the contract accepts it accepts with empty objects in the shadowed fields**, under the
same name. -/
theorem accepted_withEmpty {source : Entity} {d : ToolDefinition}
    (hd : Untrusted.toolDefinitionSchema loaded.toRealm stack source = .accepted d) :
    ∃ patched, Untrusted.toolDefinitionSchema loaded.toRealm stack
        (withEmpty loaded source (shadowedFields loaded source)) = .accepted patched ∧
      patched.name = d.name := by
  by_cases hfaithful : spreadIsFaithful loaded source = true
  · obtain ⟨own, rfl, hplain, hunlisted⟩ := spreadIsFaithful_iff.mp hfaithful
    have h : Faithful loaded own := ⟨hplain, hunlisted⟩
    cases stack with
    | zero => exact absurd hd (toolDefinitionSchema_zero _ _ _)
    | succ stack =>
        obtain ⟨hrecognised, hread, hagree⟩ := toolDefinitionSchema_faithful h hd
        obtain ⟨hname, hdescription, hnamespace, hsource, hreadWrite, hinput, houtput, hrequired,
          hannotations, hmetadata⟩ := readDefinition_eq_accepted.mp hread
        obtain ⟨outputSchema, houtput⟩ := readBlob_shadowed h hrecognised houtput
        obtain ⟨metadata, hmetadata⟩ := readBlob_shadowed h hrecognised hmetadata
        have hshown : ("inputSchema" : JsString) ∉
            shadowedFields loaded (.object own .ordinary) := by
          intro hmem
          have hblob := isSome_of_readBlob (jsonObjectSchema_iff_readBlob.mp hinput)
          exact hblob.mp rfl ((mem_shadowedFields h).mp hmem).2.1
        have hkept : ∀ key ∉ jsonBlobFields,
            readWith loaded own (shadowedFields loaded (.object own .ordinary)) key =
              readField loaded (.object own .ordinary) key := fun key hkey =>
          readWith_of_not_mem fun hmem => hkey (shadowedFields_subset key hmem)
        have hreadPatched : readDefinition loaded.toRealm (stack + 1)
            (readWith loaded own (shadowedFields loaded (.object own .ordinary))) =
              .accepted { d with outputSchema := outputSchema, metadata := metadata } := by
          rw [readDefinition_eq_accepted, hkept "name" (by decide),
            hkept "description" (by decide), hkept "namespace" (by decide),
            hkept "source" (by decide), hkept "readWrite" (by decide),
            readWith_of_not_mem hshown, hkept "requiredCapability" (by decide),
            hkept "annotations" (by decide)]
          exact ⟨hname, hdescription, hnamespace, hsource, hreadWrite, hinput, houtput, hrequired,
            hannotations, hmetadata⟩
        exact ⟨_, (toolDefinitionSchema_withEmpty h shadowedFields_subset).mpr
          ⟨hrecognised, hreadPatched, hagree⟩, rfl⟩
  · rw [shadowedFields, if_neg hfaithful, withEmpty_nil]
    exact ⟨d, hd, rfl⟩

/-- **A shadowed field shows in what is kept.** The contract's reading has nothing there. -/
theorem clone_withEmpty_ne {source : Entity} {d patched : ToolDefinition}
    (hd : Untrusted.toolDefinitionSchema loaded.toRealm stack source = .accepted d)
    (hpatched : Untrusted.toolDefinitionSchema loaded.toRealm stack
      (withEmpty loaded source (shadowedFields loaded source)) = .accepted patched)
    (hshadowed : shadowedFields loaded source ≠ []) :
    cloneDefinition patched ≠ cloneDefinition d := by
  by_cases hfaithful : spreadIsFaithful loaded source = true
  · obtain ⟨own, rfl, hplain, hunlisted⟩ := spreadIsFaithful_iff.mp hfaithful
    have h : Faithful loaded own := ⟨hplain, hunlisted⟩
    obtain ⟨-, hread, -⟩ := toolDefinitionSchema_faithful h hd
    obtain ⟨-, hreadPatched, -⟩ :=
      (toolDefinitionSchema_withEmpty h shadowedFields_subset).mp hpatched
    obtain ⟨-, -, -, -, -, hinput, houtput, -, -, hmetadata⟩ := readDefinition_eq_accepted.mp hread
    obtain ⟨-, -, -, -, -, -, houtputPatched, -, -, hmetadataPatched⟩ :=
      readDefinition_eq_accepted.mp hreadPatched
    obtain ⟨field, hmem⟩ := List.exists_mem_of_ne_nil _ hshadowed
    obtain ⟨hfield, hundefined, -⟩ := (mem_shadowedFields h).mp hmem
    -- Of the same field, one reading has a value and the other has none.
    have hdiffer : ∀ {o kept : Option Json},
        readBlob loaded stack (readField loaded (.object own .ordinary) field) = .accepted o →
        readBlob loaded stack (readWith loaded own
          (shadowedFields loaded (.object own .ordinary)) field) = .accepted kept →
        kept.map cloneJson ≠ o.map cloneJson := by
      intro o kept ho hkept heq
      have hkeptSome := (isSome_of_readBlob hkept).mpr (by rw [readWith_of_mem hmem]; nofun)
      have hsome : o.isSome = true := by
        rw [← Option.isSome_map, ← heq, Option.isSome_map]
        exact hkeptSome
      exact (isSome_of_readBlob ho).mp hsome hundefined
    intro hclone
    simp only [jsonBlobFields, List.mem_cons, List.not_mem_nil, or_false] at hfield
    rcases hfield with rfl | rfl | rfl
    · have hblob := isSome_of_readBlob (jsonObjectSchema_iff_readBlob.mp hinput)
      exact hblob.mp rfl hundefined
    · exact hdiffer houtput houtputPatched (congrArg ToolDefinition.outputSchema hclone)
    · exact hdiffer hmetadata hmetadataPatched (congrArg ToolDefinition.metadata hclone)
  · rw [shadowedFields, if_neg hfaithful] at hshadowed
    exact absurd rfl hshadowed

theorem registered_of_add {registry : ToolRegistry} {handler : HostHandler}
    {left right : ToolDefinition} {hleft : registry.has left.name = false}
    {hright : registry.has right.name = false}
    (h : registry.add (registered handler left) hleft =
      registry.add (registered handler right) hright) :
    cloneDefinition left = cloneDefinition right := by
  have htools := congrArg ToolRegistry.tools h
  have hlast := List.append_cancel_left htools
  exact congrArg ToolHandler.definition (List.head_eq_of_cons_eq hlast)

namespace Sample

/-- `Object.prototype` with an `inputSchema` that is not listed. -/
def hiddenInputSchema : Layer :=
  [("toString", ⟨.function 0, false, false⟩), ("inputSchema", ⟨.ref 5, false, false⟩)]

/-- An object of these properties, over the ordinary prototype. -/
def plain (entries : List (JsString × Value)) : Entity :=
  .object (entries.map fun e => (e.1, .data e.2)) .ordinary

/-- A definition that sets its input schema to `undefined`. -/
def unschemed : Entity :=
  plain [("name", .str "files.read"), ("description", .str "Read a file"),
    ("namespace", .str "files"), ("source", .str "builtin"), ("readWrite", .str "read"),
    ("inputSchema", .undefined), ("requiredCapability", .ref 2)]

/-- A realm whose `Object.prototype` has a hidden `inputSchema`. -/
def polluted : Loaded where
  objectPrototype := hiddenInputSchema
  entities := [plain [], unschemed,
    plain [("resource", .ref 3), ("action", .str "read")],
    plain [("namespace", .str "files"), ("path", .ref 4)], .array [], plain []]
  standIn := 0
  frozen := rfl

/-- The handler of that definition. -/
def handler : HostHandler where
  definition := .ref 1
  resolvesRequirement := false
  implementation := 0

end Sample

end SharedOS.Kernel.Registration
