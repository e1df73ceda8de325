/-
SharedOS.Conformance.LiftedFacts — what a plugin states, and what of it is in the record.

A plugin may state any value under any key but the envelope's own. Nine facts of a record are lifted
from what it stated, each by a guard of its own, and the record's schema reads them again with the
rest. A guard that lets through what the schema refuses loses the record, and two of them do: a model
and a provider are lifted for being texts.

The record is split in the lifted facts and everything else. Whether the schema accepts the record is
then whether it accepts the same record without any lifted fact, and each fact by itself, so the
question for a statement is only whether its fact passes. Seven guards answer it by being the schema's
own test or a narrower one; for the remaining two the answer is a condition on the text.

What is stated is the outcome's metadata with the annotations spread over it, and last the envelope's
own key. So the condition is on what the spread of the two has under two keys, whatever else they
hold.
-/
import SharedOS.Conformance.Assemble

namespace SharedOS.Conformance

open SharedOS.Foundation SharedOS.Contracts SharedOS.Kernel Assemble

/-! ## The facts -/

/-- The facts of a record that a plugin states. -/
structure LiftedFacts where
  catalogHash : Option JsString
  toolCount : Option JsNumber
  promptHash : Option JsString
  model : Option JsString
  modelProvider : Option JsString
  escalationAsked : Option EscalationAsked
  callsAfterEscalation : Option JsNumber
  inputTokens : Option JsNumber
  outputTokens : Option JsNumber

/-- Nothing was stated. -/
def LiftedFacts.none : LiftedFacts where
  catalogHash := .none
  toolCount := .none
  promptHash := .none
  model := .none
  modelProvider := .none
  escalationAsked := .none
  callsAfterEscalation := .none
  inputTokens := .none
  outputTokens := .none

/-- The lifted facts of a record. -/
def ExecutionRecord.facts (r : ExecutionRecord) : LiftedFacts where
  catalogHash := r.system.catalogHash
  toolCount := r.system.toolCount
  promptHash := r.system.promptHash
  model := r.system.model
  modelProvider := r.system.modelProvider
  escalationAsked := r.execution.escalationAsked
  callsAfterEscalation := r.execution.callsAfterEscalation
  inputTokens := r.cost.inputTokens
  outputTokens := r.cost.outputTokens

/-- The record with other facts. -/
def ExecutionRecord.withFacts (r : ExecutionRecord) (f : LiftedFacts) : ExecutionRecord :=
  { r with
    system := { r.system with
      catalogHash := f.catalogHash
      toolCount := f.toolCount
      promptHash := f.promptHash
      model := f.model
      modelProvider := f.modelProvider }
    execution := { r.execution with
      escalationAsked := f.escalationAsked
      callsAfterEscalation := f.callsAfterEscalation }
    cost := { r.cost with
      inputTokens := f.inputTokens
      outputTokens := f.outputTokens } }

/-- Each fact, as the schema of the record reads it. -/
structure FactsParse (f parsed : LiftedFacts) : Prop where
  catalogHash : optionalSchema contentHashSchema f.catalogHash = some parsed.catalogHash
  toolCount : optionalSchema countSchema f.toolCount = some parsed.toolCount
  promptHash : optionalSchema contentHashSchema f.promptHash = some parsed.promptHash
  model : optionalSchema identifierSchema f.model = some parsed.model
  modelProvider : optionalSchema identifierSchema f.modelProvider = some parsed.modelProvider
  escalationAsked : optionalSchema escalationAskedSchema f.escalationAsked =
    some parsed.escalationAsked
  callsAfterEscalation : optionalSchema countSchema f.callsAfterEscalation =
    some parsed.callsAfterEscalation
  inputTokens : optionalSchema countSchema f.inputTokens = some parsed.inputTokens
  outputTokens : optionalSchema countSchema f.outputTokens = some parsed.outputTokens

section Schema

variable {r : ExecutionRecord} {f parsed : LiftedFacts}

theorem systemIdentitySchema_withFacts {system : SystemIdentity}
    (hbare : systemIdentitySchema (r.withFacts .none).system = some system)
    (hfacts : FactsParse f parsed) :
    systemIdentitySchema (r.withFacts f).system = some { system with
      catalogHash := parsed.catalogHash
      toolCount := parsed.toolCount
      promptHash := parsed.promptHash
      model := parsed.model
      modelProvider := parsed.modelProvider } := by
  unfold systemIdentitySchema at hbare
  obtain ⟨_, hprotocol, hsystem⟩ := Option.bind_eq_some_iff.mp hbare
  obtain ⟨_, hsharedOs, hsystem⟩ := Option.bind_eq_some_iff.mp hsystem
  obtain ⟨_, hruntime, hsystem⟩ := Option.bind_eq_some_iff.mp hsystem
  obtain ⟨_, hadapter, hsystem⟩ := Option.bind_eq_some_iff.mp hsystem
  obtain ⟨_, -, hsystem⟩ := Option.bind_eq_some_iff.mp hsystem
  obtain ⟨_, -, hsystem⟩ := Option.bind_eq_some_iff.mp hsystem
  obtain ⟨_, hpolicy, hsystem⟩ := Option.bind_eq_some_iff.mp hsystem
  obtain ⟨_, -, hsystem⟩ := Option.bind_eq_some_iff.mp hsystem
  obtain ⟨_, -, hsystem⟩ := Option.bind_eq_some_iff.mp hsystem
  obtain ⟨_, -, hsystem⟩ := Option.bind_eq_some_iff.mp hsystem
  obtain ⟨_, htoolPolicy, hsystem⟩ := Option.bind_eq_some_iff.mp hsystem
  obtain ⟨_, hmetadata, hsystem⟩ := Option.bind_eq_some_iff.mp hsystem
  cases hsystem
  unfold systemIdentitySchema
  dsimp only [ExecutionRecord.withFacts] at *
  simp only [hprotocol, hsharedOs, hruntime, hadapter, hfacts.model,
    hfacts.modelProvider, hpolicy, hfacts.catalogHash, hfacts.toolCount, hfacts.promptHash,
    htoolPolicy, hmetadata, Option.bind_eq_bind, Option.bind_some]

variable [HostPlatform]

theorem executionRecordExecutionSchema_withFacts {execution : ExecutionRecordExecution}
    (hbare : executionRecordExecutionSchema (r.withFacts .none).execution = some execution)
    (hfacts : FactsParse f parsed) :
    executionRecordExecutionSchema (r.withFacts f).execution = some { execution with
      escalationAsked := parsed.escalationAsked
      callsAfterEscalation := parsed.callsAfterEscalation } := by
  unfold executionRecordExecutionSchema at hbare
  obtain ⟨_, hid, hread⟩ := Option.bind_eq_some_iff.mp hbare
  obtain ⟨_, htrace, hread⟩ := Option.bind_eq_some_iff.mp hread
  obtain ⟨_, hagent, hread⟩ := Option.bind_eq_some_iff.mp hread
  obtain ⟨_, hreason, hread⟩ := Option.bind_eq_some_iff.mp hread
  obtain ⟨_, houtput, hread⟩ := Option.bind_eq_some_iff.mp hread
  obtain ⟨_, hescalation, hread⟩ := Option.bind_eq_some_iff.mp hread
  obtain ⟨_, -, hread⟩ := Option.bind_eq_some_iff.mp hread
  obtain ⟨_, -, hread⟩ := Option.bind_eq_some_iff.mp hread
  obtain ⟨_, hexposed, hread⟩ := Option.bind_eq_some_iff.mp hread
  obtain ⟨_, hrequested, hread⟩ := Option.bind_eq_some_iff.mp hread
  obtain ⟨_, hdecisions, hread⟩ := Option.bind_eq_some_iff.mp hread
  obtain ⟨_, hoperations, hread⟩ := Option.bind_eq_some_iff.mp hread
  obtain ⟨_, hevents, hread⟩ := Option.bind_eq_some_iff.mp hread
  obtain ⟨_, haudit, hread⟩ := Option.bind_eq_some_iff.mp hread
  cases hread
  unfold executionRecordExecutionSchema
  dsimp only [ExecutionRecord.withFacts] at *
  simp only [hid, htrace, hagent, hreason, houtput, hescalation,
    hfacts.escalationAsked, hfacts.callsAfterEscalation, hexposed, hrequested, hdecisions,
    hoperations, hevents, haudit, Option.bind_eq_bind, Option.bind_some]

theorem costRecordSchema_withFacts {cost : CostRecord}
    (hbare : costRecordSchema (r.withFacts .none).cost = some cost) (hfacts : FactsParse f parsed) :
    costRecordSchema (r.withFacts f).cost = some { cost with
      inputTokens := parsed.inputTokens
      outputTokens := parsed.outputTokens } := by
  unfold costRecordSchema at hbare
  obtain ⟨_, hstarted, hread⟩ := Option.bind_eq_some_iff.mp hbare
  obtain ⟨_, hcompleted, hread⟩ := Option.bind_eq_some_iff.mp hread
  obtain ⟨_, helapsed, hread⟩ := Option.bind_eq_some_iff.mp hread
  obtain ⟨_, hinfrastructure, hread⟩ := Option.bind_eq_some_iff.mp hread
  obtain ⟨_, htools, hread⟩ := Option.bind_eq_some_iff.mp hread
  obtain ⟨_, hloads, hread⟩ := Option.bind_eq_some_iff.mp hread
  obtain ⟨_, haudit, hread⟩ := Option.bind_eq_some_iff.mp hread
  obtain ⟨_, -, hread⟩ := Option.bind_eq_some_iff.mp hread
  obtain ⟨_, -, hread⟩ := Option.bind_eq_some_iff.mp hread
  obtain ⟨_, hmetadata, hread⟩ := Option.bind_eq_some_iff.mp hread
  cases hread
  unfold costRecordSchema
  dsimp only [ExecutionRecord.withFacts] at *
  simp only [hstarted, hcompleted, helapsed, hinfrastructure, htools,
    hloads, haudit, hfacts.inputTokens, hfacts.outputTokens, hmetadata, Option.bind_eq_bind,
    Option.bind_some]

/-- A record that is accepted without facts is accepted with facts that are. -/
theorem executionRecordSchema_withFacts {read : ExecutionRecord}
    (hbare : executionRecordSchema (r.withFacts .none) = some read) (hfacts : FactsParse f parsed) :
    executionRecordSchema (r.withFacts f) = some (read.withFacts parsed) := by
  unfold executionRecordSchema at hbare
  simp only [Option.bind_eq_bind, Option.bind_eq_some_iff] at hbare
  obtain ⟨_, hversion, _, hrecordedAt, _, hexperiment, _, hsystem, _, hauthority, _, hexecution, _,
    hstate, _, hcost, hread⟩ := hbare
  cases hread
  have hversion' : testSchema _ (r.withFacts f).version = _ := hversion
  have hrecordedAt' : timestampSchema (r.withFacts f).recordedAt = _ := hrecordedAt
  have hexperiment' : experimentIdentitySchema (r.withFacts f).experiment = _ := hexperiment
  have hauthority' : authorityRecordSchema (r.withFacts f).authority = _ := hauthority
  have hstate' : stateRecordSchema (r.withFacts f).state = _ := hstate
  unfold executionRecordSchema
  simp only [hversion', hrecordedAt', hexperiment', systemIdentitySchema_withFacts hsystem hfacts,
    hauthority', executionRecordExecutionSchema_withFacts hexecution hfacts, hstate',
    costRecordSchema_withFacts hcost hfacts, Option.bind_eq_bind, Option.bind_some]
  rfl

/-- An accepted record names its model and provider as the schema of the record has them. -/
theorem model_of_executionRecordSchema {read : ExecutionRecord}
    (h : executionRecordSchema r = some read) :
    (optionalSchema identifierSchema r.system.model).isSome ∧
      (optionalSchema identifierSchema r.system.modelProvider).isSome := by
  unfold executionRecordSchema at h
  simp only [Option.bind_eq_bind, Option.bind_eq_some_iff] at h
  obtain ⟨_, -, _, -, _, -, _, hsystem, -⟩ := h
  unfold systemIdentitySchema at hsystem
  obtain ⟨_, -, hsystem⟩ := Option.bind_eq_some_iff.mp hsystem
  obtain ⟨_, -, hsystem⟩ := Option.bind_eq_some_iff.mp hsystem
  obtain ⟨_, -, hsystem⟩ := Option.bind_eq_some_iff.mp hsystem
  obtain ⟨_, -, hsystem⟩ := Option.bind_eq_some_iff.mp hsystem
  obtain ⟨_, hmodel, hsystem⟩ := Option.bind_eq_some_iff.mp hsystem
  obtain ⟨_, hprovider, hsystem⟩ := Option.bind_eq_some_iff.mp hsystem
  exact ⟨by simp [hmodel], by simp [hprovider]⟩

end Schema

/-! ## What is stated -/

/-- `runtimeProvenance`, with the manifest's own metadata. -/
def runtimeProvenance (manifest : RuntimeManifest) : Json :=
  .obj (([("id", .str manifest.id), ("version", .str manifest.version),
    ("protocolVersion", .str manifest.protocolVersion)] : List (JsString × Json)) ++
      optionalEntry "metadata" manifest.metadata)

/-- `RUNTIME_METADATA_KEY` -/
def runtimeMetadataKey : JsString := "runtime"

/-- `runtimeResultMetadata`: the provenance of the envelope stands over what was stated. -/
def runtimeResultMetadata (manifest : RuntimeManifest) (outcome annotations : List (JsString × Json)) :
    Json :=
  .obj (spreadEntries (spreadEntries outcome annotations)
    [(runtimeMetadataKey, runtimeProvenance manifest)])

/-- A fact that is a text of the schema. -/
def textFact (schema : JsString → Option JsString) (v : Option Json) : Option JsString :=
  (v.bind jsonText).bind schema

/-- A fact that is a count. -/
def countFact : Option Json → Option JsNumber
  | some (.num x) => countSchema x
  | _ => none

/-- The facts a plugin stated, each as the schema of the record reads what stands under its key. A
catalogue that is named has as many tools as the turn exposed. -/
def statedFacts (events : List FullExecutionEvent) (stated : JsString → Option Json) :
    LiftedFacts where
  catalogHash := textFact contentHashSchema (stated "catalogHash")
  toolCount := (textFact contentHashSchema (stated "catalogHash")).map fun _ =>
    .finite (exposedTools events).length
  promptHash := textFact contentHashSchema (stated "promptHash")
  model := textFact identifierSchema (stated "model")
  modelProvider := textFact identifierSchema (stated "modelProvider")
  escalationAsked :=
    ((stated "escalationAsked").bind escalationAskedCodec.read).bind escalationAskedSchema
  callsAfterEscalation := countFact (stated "callsAfterEscalation")
  inputTokens := countFact (stated "inputTokens")
  outputTokens := countFact (stated "outputTokens")

/-- The facts as the guards let them through. -/
def guardedFacts (events : List FullExecutionEvent) (stated : JsString → Option Json) :
    LiftedFacts where
  catalogHash := hashOf (stated "catalogHash")
  toolCount := (hashOf (stated "catalogHash")).map fun _ => .finite (exposedTools events).length
  promptHash := hashOf (stated "promptHash")
  model := textOf (stated "model")
  modelProvider := textOf (stated "modelProvider")
  escalationAsked :=
    ((stated "escalationAsked").bind escalationAskedCodec.read).bind escalationAskedSchema
  callsAfterEscalation := countOf (stated "callsAfterEscalation")
  inputTokens := countOf (stated "inputTokens")
  outputTokens := countOf (stated "outputTokens")

/-! ## Assembly -/

namespace AssembleExecutionRecordInput

/-- The input over a result whose metadata is the provenance of the envelope and what was stated. -/
def stating (input : AssembleExecutionRecordInput) (manifest : RuntimeManifest)
    (outcome annotations : List (JsString × Json)) : AssembleExecutionRecordInput :=
  { input with
    result := { input.result with
      metadata := some (runtimeResultMetadata manifest outcome annotations) } }

/-- The caller says nothing of the facts itself. -/
structure OverridesNone (input : AssembleExecutionRecordInput) : Prop where
  catalogHash : input.system.catalogHash = none
  toolCount : input.system.toolCount = none
  promptHash : input.system.promptHash = none
  model : input.system.model = none
  modelProvider : input.system.modelProvider = none
  inputTokens : input.cost.bind ExecutionRecordCostInput.inputTokens = none
  outputTokens : input.cost.bind ExecutionRecordCostInput.outputTokens = none

variable {input : AssembleExecutionRecordInput} {manifest : RuntimeManifest}
  {outcome annotations : List (JsString × Json)}

/-- Under any key but the envelope's own stands what was stated. -/
theorem resultMetadata_stating {key : JsString} (h : key ≠ runtimeMetadataKey) :
    resultMetadata (input.stating manifest outcome annotations).result key =
      (spreadEntries outcome annotations).lookup key := by
  show (spreadEntries (spreadEntries outcome annotations)
    [(runtimeMetadataKey, runtimeProvenance manifest)]).lookup key = _
  rw [lookup_spreadEntries, List.lookup_cons, beq_false_of_ne h]
  rfl

/-- Under the envelope's own key stands its provenance. -/
theorem resultMetadata_runtime :
    resultMetadata (input.stating manifest outcome annotations).result runtimeMetadataKey =
      some (runtimeProvenance manifest) := by
  show (spreadEntries (spreadEntries outcome annotations)
    [(runtimeMetadataKey, runtimeProvenance manifest)]).lookup runtimeMetadataKey = _
  rw [lookup_spreadEntries, List.lookup_cons_self]
  rfl

variable [HostPlatform]

/-- What was stated adds to the draft the facts its guards let through, and nothing else. -/
theorem draft_stating (h : input.OverridesNone) (runtime : RuntimeManifest) :
    (input.stating manifest outcome annotations).draft runtime =
      ((input.stating manifest [] []).draft runtime).withFacts
        (guardedFacts input.result.events fun key =>
          (spreadEntries outcome annotations).lookup key) := by
  have hread : ∀ key : JsString, key ≠ runtimeMetadataKey →
      resultMetadata (input.stating manifest outcome annotations).result key = _ :=
    fun key hkey => resultMetadata_stating hkey
  have hcatalog := hread "catalogHash" (by decide)
  have hprompt := hread "promptHash" (by decide)
  have hmodel := hread "model" (by decide)
  have hprovider := hread "modelProvider" (by decide)
  have hasked := hread "escalationAsked" (by decide)
  have hcalls := hread "callsAfterEscalation" (by decide)
  have hinput := hread "inputTokens" (by decide)
  have houtput := hread "outputTokens" (by decide)
  unfold draft ExecutionRecord.withFacts guardedFacts
  congr 1
  · unfold systemIdentity
    rw [hcatalog, hprompt, hmodel, hprovider]
    simp only [stating, h.catalogHash, h.toolCount, h.promptHash, h.model, h.modelProvider,
      Option.none_or]
  · unfold execution Assemble.escalationAsked
    rw [hasked, hcalls]
    rfl
  · unfold costRecord
    rw [hinput, houtput]
    simp only [stating, h.inputTokens, h.outputTokens, Option.none_or]
    rfl

end AssembleExecutionRecordInput

/-! ## The guards and the schema -/

theorem textOf_eq (v : Option Json) : textOf v = v.bind jsonText := by
  cases v with
  | none => rfl
  | some v => cases v <;> rfl

/-- A guard that is the schema lets through what the schema leaves as it is. -/
theorem optionalSchema_guarded {α : Type} {schema : α → Option α}
    (hidem : ∀ a b, schema a = some b → schema b = some b) (a : Option α) :
    optionalSchema schema (a.bind schema) = some (a.bind schema) := by
  cases hread : a.bind schema with
  | none => rfl
  | some b =>
      obtain ⟨written, -, hwritten⟩ := Option.bind_eq_some_iff.mp hread
      show (schema b).map some = _
      rw [hidem written b hwritten, Option.map_some]

theorem testSchema_idem {α : Type} {test : α → Bool} (a b : α) (h : testSchema test a = some b) :
    testSchema test b = some b := by
  unfold testSchema at h ⊢
  split at h
  · next htest =>
      cases h
      exact if_pos htest
  · cases h

theorem escalationAskedSchema_idem (a b : EscalationAsked) (h : escalationAskedSchema a = some b) :
    escalationAskedSchema b = some b := by
  unfold escalationAskedSchema at h
  obtain ⟨tool, htool, h⟩ := Option.bind_eq_some_iff.mp h
  obtain ⟨reason, hreason, h⟩ := Option.bind_eq_some_iff.mp h
  cases h
  unfold escalationAskedSchema
  simp only [identifierSchema, trimmedString_idem htool, testSchema_idem _ _ hreason,
    Option.bind_eq_bind, Option.bind_some]

theorem optionalSchema_hash (v : Option Json) :
    optionalSchema contentHashSchema (hashOf v) = some (textFact contentHashSchema v) := by
  unfold hashOf textFact
  rw [textOf_eq]
  exact optionalSchema_guarded testSchema_idem _

theorem countOf_eq (v : Option Json) : countOf v = countFact v := by
  cases v with
  | none => rfl
  | some v => cases v <;> rfl

theorem optionalSchema_count (v : Option Json) :
    optionalSchema countSchema (countOf v) = some (countFact v) := by
  rw [countOf_eq]
  cases v with
  | none => rfl
  | some v =>
      cases v with
      | num x => exact optionalSchema_guarded testSchema_idem (some x)
      | null | bool | str | arr | obj => rfl

/-- As many tools as there are is a count. -/
theorem countSchema_natCast (n : ℕ) : countSchema (.finite n) = some (.finite n) := by
  have hint : isInteger (.finite n) = true := by simp [isInteger]
  have hpos : isNonnegative (.finite n) = true := by simp [isNonnegative]
  unfold countSchema testSchema
  rw [if_pos (by simp only [hint, hpos, Bool.and_self])]

/-- Whatever stands there, a text is an identifier of the schema. -/
def NamesOrNothing (v : Option Json) : Prop :=
  ∀ s, v = some (.str s) → (identifierSchema s).isSome

/-- What is lifted for being a text is read by the schema exactly where it is an identifier. -/
theorem optionalSchema_identifier_iff (v : Option Json) :
    (optionalSchema identifierSchema (textOf v)).isSome ↔ NamesOrNothing v := by
  unfold NamesOrNothing
  cases v with
  | none => simp [textOf, optionalSchema]
  | some v =>
      cases v with
      | str s => simp [textOf, optionalSchema]
      | null | bool | num | arr | obj => simp [textOf, optionalSchema]

theorem optionalSchema_identifier {v : Option Json} (h : NamesOrNothing v) :
    optionalSchema identifierSchema (textOf v) = some (textFact identifierSchema v) := by
  have hread := (optionalSchema_identifier_iff v).mpr h
  unfold textFact
  rw [textOf_eq] at hread ⊢
  cases hwritten : v.bind jsonText with
  | none => rfl
  | some s =>
      rw [hwritten] at hread
      obtain ⟨i, hi⟩ : ∃ i, identifierSchema s = some i := by
        rw [← Option.isSome_iff_exists]
        simpa [optionalSchema] using hread
      show (identifierSchema s).map some = some (identifierSchema s)
      rw [hi, Option.map_some]

/-- The guards let through the facts as the schema reads them, where the two texts are names. -/
theorem factsParse (events : List FullExecutionEvent) (stated : JsString → Option Json)
    (hmodel : NamesOrNothing (stated "model")) (hprovider : NamesOrNothing (stated "modelProvider")) :
    FactsParse (guardedFacts events stated) (statedFacts events stated) where
  catalogHash := optionalSchema_hash _
  toolCount := by
    have hhash : hashOf (stated "catalogHash") =
        textFact contentHashSchema (stated "catalogHash") := by
      unfold hashOf textFact
      rw [textOf_eq]
    unfold guardedFacts statedFacts
    dsimp only
    rw [hhash]
    cases textFact contentHashSchema (stated "catalogHash") with
    | none => rfl
    | some hash =>
        show (countSchema (.finite (exposedTools events).length)).map some = _
        rw [countSchema_natCast, Option.map_some]
        rfl
  promptHash := optionalSchema_hash _
  model := optionalSchema_identifier hmodel
  modelProvider := optionalSchema_identifier hprovider
  escalationAsked := optionalSchema_guarded escalationAskedSchema_idem _
  callsAfterEscalation := optionalSchema_count _
  inputTokens := optionalSchema_count _
  outputTokens := optionalSchema_count _

section Assembled

variable [HostPlatform]

/-- The runtime a record names is not among what a plugin states. -/
theorem assemble_stating (input : AssembleExecutionRecordInput) (manifest : RuntimeManifest)
    (outcome annotations : List (JsString × Json)) :
    assembleExecutionRecord (input.stating manifest outcome annotations) =
      (input.system.runtime.or ((runtimeManifestCodec.read (runtimeProvenance manifest)).bind
        runtimeManifestSchema)).bind fun runtime =>
          executionRecordSchema ((input.stating manifest outcome annotations).draft runtime) := by
  unfold assembleExecutionRecord runtimeManifestOf
  rw [show resultMetadata (input.stating manifest outcome annotations).result "runtime" = _ from
    AssembleExecutionRecordInput.resultMetadata_runtime]
  rfl

/-- **A plugin's statements cannot break the record, but for a model or a provider that is no
identifier.** Where they are none, each fact is in the record exactly as the schema reads it, and a
malformed one reads as none. -/
theorem statements_keep_the_record_iff (input : AssembleExecutionRecordInput)
    (manifest : RuntimeManifest) (outcome annotations : List (JsString × Json))
    (hvalid : (assembleExecutionRecord (input.stating manifest [] [])).isSome)
    (hover : input.OverridesNone) :
    (∃ record, assembleExecutionRecord (input.stating manifest outcome annotations) = some record ∧
      record.facts = statedFacts input.result.events fun key =>
        (spreadEntries outcome annotations).lookup key) ↔
      NamesOrNothing ((spreadEntries outcome annotations).lookup ("model" : JsString)) ∧
        NamesOrNothing ((spreadEntries outcome annotations).lookup ("modelProvider" : JsString)) := by
  obtain ⟨bare, hbare⟩ := Option.isSome_iff_exists.mp hvalid
  rw [assemble_stating] at hbare
  obtain ⟨runtime, hruntime, hbare⟩ := Option.bind_eq_some_iff.mp hbare
  rw [assemble_stating, hruntime, Option.bind_some, AssembleExecutionRecordInput.draft_stating hover]
  constructor
  · rintro ⟨record, hrecord, -⟩
    obtain ⟨hmodel, hprovider⟩ := model_of_executionRecordSchema hrecord
    exact ⟨(optionalSchema_identifier_iff _).mp hmodel,
      (optionalSchema_identifier_iff _).mp hprovider⟩
  · rintro ⟨hmodel, hprovider⟩
    rw [AssembleExecutionRecordInput.draft_stating hover] at hbare
    -- the record without the statements is valid, so only the two stated fields can break it
    have hfacts := factsParse input.result.events
      (fun key => (spreadEntries outcome annotations).lookup key) hmodel hprovider
    exact ⟨_, executionRecordSchema_withFacts hbare hfacts, rfl⟩

end Assembled

namespace Sample

/-- A runtime that names itself. -/
def provenance : RuntimeManifest where
  id := "runtime"
  version := "1"
  protocolVersion := PROTOCOL_VERSION
  metadata := none

/-- A turn that did nothing, and a caller that says of it what it has to. -/
def idleInput : AssembleExecutionRecordInput where
  request := {
    executionId := "run"
    agent := .agent "worker"
    context := {
      namespaceId := "ns", actor := .agent "worker", authority := .agent "lead"
      owner := .human "owner", purpose := "work", traceId := "trace", executionId := none
      enabledToolNamespaces := [], now := "2026-03-01T00:00:00Z" }
    message := { receiver := .agent "worker", traceId := "trace", purpose := "work" }
    tools := []
    options := none }
  result := {
    version := PROTOCOL_VERSION, executionId := "run", traceId := "trace", events := []
    startedAt := "2026-03-01T00:00:00Z", completedAt := "2026-03-01T00:00:01Z", metadata := none
    ending := .succeeded .null }
  auditEvents := []
  experiment := {
    experimentId := "experiment", taskId := "task", runId := "run"
    specHash := List.replicate 64 0x61, worldHash := List.replicate 64 0x61
    evaluatorHash := List.replicate 64 0x61, seed := none, metadata := none }
  system := {
    protocolVersion := PROTOCOL_VERSION, sharedOsVersion := "1.0.0-preview", runtime := none
    adapterId := "adapter", model := none, modelProvider := none
    policyHash := List.replicate 64 0x61, catalogHash := none, toolCount := none
    promptHash := none, toolPolicy := none, metadata := none }
  state := none
  cost := none
  auditRef := none
  recordedAt := none

theorem idleInput_overridesNone : idleInput.OverridesNone := ⟨rfl, rfl, rfl, rfl, rfl, rfl, rfl⟩

end Sample

open scoped SharedOS.Foundation.Reference in
/-- A plugin that states the empty text for its model leaves no record. -/
theorem statement_breaks_the_record :
    ¬ ∀ (input : AssembleExecutionRecordInput) (manifest : RuntimeManifest)
        (outcome annotations : List (JsString × Json)),
      (assembleExecutionRecord (input.stating manifest [] [])).isSome → input.OverridesNone →
      ∃ record, assembleExecutionRecord (input.stating manifest outcome annotations) = some record ∧
        record.facts = statedFacts input.result.events fun key =>
          (spreadEntries outcome annotations).lookup key := by
  intro h
  have hvalid : (assembleExecutionRecord (Sample.idleInput.stating Sample.provenance [] [])).isSome := by
    decide +kernel
  obtain ⟨record, hrecord, -⟩ := h Sample.idleInput Sample.provenance [("model", .str "")] [] hvalid
    Sample.idleInput_overridesNone
  have hnone : (assembleExecutionRecord
      (Sample.idleInput.stating Sample.provenance [("model", .str "")] [])).isNone := by decide +kernel
  rw [hrecord] at hnone
  cases hnone

open scoped SharedOS.Foundation.Reference in
/-- A model that is named is kept, beside a count that is none. -/
theorem statements_keep_the_record_named :
    ∃ record, assembleExecutionRecord (Sample.idleInput.stating Sample.provenance
        [("model", .str "m"), ("inputTokens", .str "many")] []) = some record ∧
      record.system.model = some "m" ∧ record.cost.inputTokens = none := by
  obtain ⟨record, hrecord, hfacts⟩ := (statements_keep_the_record_iff Sample.idleInput
    Sample.provenance [("model", .str "m"), ("inputTokens", .str "many")] [] (by decide +kernel)
    Sample.idleInput_overridesNone).mpr (by
      constructor
      · intro s hs
        cases hs
        decide
      · intro s hs
        cases hs)
  refine ⟨record, hrecord, ?_, ?_⟩
  · exact congrArg LiftedFacts.model hfacts
  · exact congrArg LiftedFacts.inputTokens hfacts

end SharedOS.Conformance
