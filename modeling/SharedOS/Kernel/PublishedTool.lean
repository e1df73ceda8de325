/-
SharedOS.Kernel.PublishedTool — a tool as a harness sees it, and the hash of a catalogue.

Publishing drops what bears on authorization. The hash is over the tools in the order of their
names, so it depends on which tools a catalogue has and on nothing about how it was delivered.
-/
import SharedOS.Core.CapabilityRequest
import SharedOS.Foundation.Listing
import SharedOS.Kernel.ToolRegistry

namespace SharedOS.Kernel

open SharedOS.Foundation SharedOS.Contracts SharedOS.Core

/-! ## The projection -/

/-- `PublishedToolAnnotations`: what a model is told of a tool's effect. -/
structure PublishedToolAnnotations where
  readOnlyHint : Bool
  destructiveHint : Option Bool
  idempotentHint : Option Bool

/-- `PublishedToolMetadata`: where the tool comes from. -/
structure PublishedToolMetadata where
  «namespace» : JsString
  source : JsString

/-- `PublishedToolDefinition`: a registration without the capability it would require. -/
structure PublishedToolDefinition where
  name : JsString
  description : JsString
  inputSchema : Json
  outputSchema : Option Json
  annotations : PublishedToolAnnotations
  metadata : PublishedToolMetadata

/-- `PublishedToolDefinitionSchema`. -/
def publishedToolDefinitionSchema (tool : PublishedToolDefinition) :
    Option PublishedToolDefinition := do
  let name ← toolNameSchema tool.name
  let description ← boundedString 8192 tool.description
  let inputSchema ← jsonObjectSchema tool.inputSchema
  let outputSchema ← optionalSchema jsonObjectSchema tool.outputSchema
  let «namespace» ← identifierSchema tool.metadata.namespace
  let source ← identifierSchema tool.metadata.source
  some { name, description, inputSchema, outputSchema, annotations := tool.annotations,
         metadata := { «namespace», source } }

/-- A hint appears only where the registration stated it, but for `readOnlyHint`. -/
def publishToolDefinition (definition : ToolDefinition) : Option PublishedToolDefinition :=
  publishedToolDefinitionSchema
    { name := definition.name
      description := definition.description
      inputSchema := definition.inputSchema
      outputSchema := definition.outputSchema
      annotations :=
        { readOnlyHint :=
            (definition.annotations.bind ToolAnnotations.readOnly).getD (definition.readWrite = .read)
          destructiveHint := definition.annotations.bind ToolAnnotations.destructive
          idempotentHint := definition.annotations.bind ToolAnnotations.idempotent }
      metadata := { «namespace» := definition.namespace, source := definition.source } }

/-- The catalogue in canonical order. A name that is there twice is refused. -/
def publishToolCatalog (definitions : List ToolDefinition) :
    Option (List PublishedToolDefinition) :=
  (definitions.mapM publishToolDefinition).bind fun published =>
    if (published.map PublishedToolDefinition.name).Nodup then
      some (sortByKey PublishedToolDefinition.name published)
    else none

/-! ## The hash -/

/-- The annotations, as they are hashed. -/
def PublishedToolAnnotations.toJson (annotations : PublishedToolAnnotations) : Json :=
  .obj (("readOnlyHint", .bool annotations.readOnlyHint) ::
    (optionalEntry "destructiveHint" (annotations.destructiveHint.map .bool) ++
      optionalEntry "idempotentHint" (annotations.idempotentHint.map .bool)))

/-- The metadata, as they are hashed. -/
def PublishedToolMetadata.toJson (metadata : PublishedToolMetadata) : Json :=
  .obj [("namespace", .str metadata.namespace), ("source", .str metadata.source)]

/-- The published form, as it is hashed. -/
def PublishedToolDefinition.toJson (tool : PublishedToolDefinition) : Json :=
  .obj (("name", .str tool.name) :: ("description", .str tool.description) ::
    ("inputSchema", tool.inputSchema) ::
    ("annotations", tool.annotations.toJson) :: ("metadata", tool.metadata.toJson) ::
    optionalEntry "outputSchema" tool.outputSchema)

/-- `catalogHash`: the tools in canonical order, hashed as one value. -/
def catalogHash [HostPlatform] (tools : List PublishedToolDefinition) : JsString :=
  hashJson (.arr ((sortByKey PublishedToolDefinition.name tools).map PublishedToolDefinition.toJson))

/-! ## A listing of a registry -/

/-- The definitions of a registry, as it lists them. -/
def ToolRegistry.definitions [HostPlatform] (registry : ToolRegistry) : List ToolDefinition :=
  (registry.tools.map ToolHandler.definition).insertionSort fun left right =>
    HostPlatform.localeCompare left.name right.name ≤ 0

theorem ToolRegistry.definitions_perm [HostPlatform] (registry : ToolRegistry) :
    registry.definitions.Perm (registry.tools.map ToolHandler.definition) :=
  List.perm_insertionSort _ _

theorem mem_definitions [HostPlatform] {registry : ToolRegistry} {definition : ToolDefinition} :
    definition ∈ registry.definitions ↔
      definition ∈ registry.tools.map ToolHandler.definition :=
  registry.definitions_perm.mem_iff

theorem ToolRegistry.definitions_nodup [HostPlatform] (registry : ToolRegistry) :
    (registry.definitions.map ToolDefinition.name).Nodup := by
  rw [(registry.definitions_perm.map ToolDefinition.name).nodup_iff, List.map_map]
  exact registry.distinct

/-- Of a list in which no image is had twice, the images of a part tell the part. -/
theorem filter_eq_of_images {α β : Type} {f : α → β} {xs : List α} (h : (xs.map f).Nodup)
    {p q : α → Bool} (himages : ∀ b, b ∈ (xs.filter p).map f ↔ b ∈ (xs.filter q).map f) :
    xs.filter p = xs.filter q := by
  have hpart : ∀ {p q : α → Bool}, (∀ b, b ∈ (xs.filter p).map f → b ∈ (xs.filter q).map f) →
      ∀ x ∈ xs, p x = true → q x = true := by
    intro p q hsub x hx hp
    obtain ⟨y, hy, hyx⟩ := List.mem_map.mp
      (hsub (f x) (List.mem_map_of_mem (List.mem_filter.mpr ⟨hx, hp⟩)))
    obtain ⟨hymem, hq⟩ := List.mem_filter.mp hy
    rw [← List.inj_on_of_nodup_map h hymem hx hyx]
    exact hq
  refine List.filter_congr fun x hx => Bool.eq_iff_iff.mpr ⟨?_, ?_⟩
  · exact hpart (fun b => (himages b).mp) x hx
  · exact hpart (fun b => (himages b).mpr) x hx

/-! ## What is registered can be published -/

/-- **The clone of a parsed value is its own parse.** -/
theorem jsonSchema_cloneJson {v w : Json} (h : jsonSchema v = some w) :
    jsonSchema (cloneJson w) = some (cloneJson w) := by
  induction v generalizing w with
  | null | bool | str =>
      cases h
      rfl
  | num x => cases x <;> cases h <;> rfl
  | arr items ih =>
      obtain ⟨parsed, hparsed, rfl⟩ := Option.map_eq_some_iff.mp h
      have hitems : jsonItemsSchema (cloneJsonItems parsed) = some (cloneJsonItems parsed) := by
        clear h
        induction items generalizing parsed with
        | nil =>
            cases hparsed
            rfl
        | cons v rest ihrest =>
            obtain ⟨v', rest', hv, hrest, rfl⟩ := jsonItemsSchema_cons hparsed
            have hhead := ih v List.mem_cons_self hv
            have htail := ihrest (fun u hu => ih u (List.mem_cons_of_mem v hu)) rest' hrest
            show jsonItemsSchema (cloneJson v' :: cloneJsonItems rest') = _
            unfold jsonItemsSchema
            rw [hhead, htail]
            rfl
      show (jsonItemsSchema (cloneJsonItems parsed)).map Json.arr = _
      rw [hitems]
      rfl
  | obj entries ih =>
      obtain ⟨parsed, hparsed, rfl⟩ := Option.map_eq_some_iff.mp h
      have hentries : jsonEntriesSchema (cloneJsonEntries parsed) =
          some (cloneJsonEntries parsed) := by
        clear h
        induction entries generalizing parsed with
        | nil =>
            cases hparsed
            rfl
        | cons entry rest ihrest =>
            obtain ⟨k, v⟩ := entry
            obtain ⟨v', rest', hv, hrest, rfl⟩ := jsonEntriesSchema_cons hparsed
            have hhead := ih (k, v) List.mem_cons_self hv
            have htail := ihrest (fun u hu => ih u (List.mem_cons_of_mem _ hu)) rest' hrest
            split
            · exact htail
            · next hkey =>
                show jsonEntriesSchema ((k, cloneJson v') :: cloneJsonEntries rest') = _
                unfold jsonEntriesSchema
                rw [hhead, htail]
                show some (if k = _ then _ else _) = _
                rw [if_neg hkey]
                rfl
      show (jsonEntriesSchema (cloneJsonEntries parsed)).map Json.obj = _
      rw [hentries]
      rfl

theorem jsonObjectSchema_cloneJson {v w : Json} (h : jsonObjectSchema v = some w) :
    jsonObjectSchema (cloneJson w) = some (cloneJson w) := by
  cases v with
  | obj entries =>
      obtain ⟨parsed, -, rfl⟩ := Option.map_eq_some_iff.mp h
      exact jsonSchema_cloneJson (v := .obj entries) h
  | _ => cases h

/-- A definition a registry can hold: what the schema returned, cloned. -/
def Registrable (definition : ToolDefinition) : Prop :=
  ∃ candidate parsed, toolDefinitionSchema candidate = some parsed ∧
    definition = cloneDefinition parsed

theorem toolNameSchema_eq {s t : JsString} (h : toolNameSchema s = some t) : t = s := by
  unfold toolNameSchema at h
  split at h
  · exact (Option.some.inj h).symm
  · cases h

/-- **What is registered can be published**, under its name. -/
theorem publishToolDefinition_registrable {definition : ToolDefinition}
    (h : Registrable definition) :
    ∃ published, publishToolDefinition definition = some published ∧
      published.name = definition.name := by
  obtain ⟨candidate, parsed, hparsed, rfl⟩ := h
  unfold toolDefinitionSchema at hparsed
  simp only [Option.bind_eq_bind, Option.bind_eq_some_iff] at hparsed
  obtain ⟨name, hname, description, hdescription, ns, hns, source, hsource, inputSchema, hinput,
    outputSchema, houtput, requirement, -, metadata, -, hagree⟩ := hparsed
  split at hagree
  · cases hagree
    have hname' : toolNameSchema name = some name := toolNameSchema_eq hname ▸ hname
    have hdescription' : boundedString 8192 description = some description :=
      (boundedString_eq hdescription).1 ▸ hdescription
    have houtput' : optionalSchema jsonObjectSchema (outputSchema.map cloneJson) =
        some (outputSchema.map cloneJson) := by
      cases hstated : candidate.outputSchema with
      | none =>
          rw [hstated] at houtput
          cases houtput
          rfl
      | some v =>
          rw [hstated] at houtput
          obtain ⟨w, hw, rfl⟩ := Option.map_eq_some_iff.mp houtput
          show (jsonObjectSchema (cloneJson w)).map some = _
          rw [jsonObjectSchema_cloneJson hw]
          rfl
    unfold publishToolDefinition publishedToolDefinitionSchema cloneDefinition
    dsimp only
    rw [hname', hdescription', jsonObjectSchema_cloneJson hinput, houtput',
      show identifierSchema ns = some ns from trimmedString_idem hns,
      show identifierSchema source = some source from trimmedString_idem hsource]
    exact ⟨_, rfl, rfl⟩
  · cases hagree

namespace ToolRegistry

/-- **What a registry holds has been registered.** -/
theorem registerAll_registrable {candidates : List CandidateHandler} {before after : ToolRegistry}
    (hbefore : ∀ handler ∈ before.tools, Registrable handler.definition)
    (h : before.registerAll candidates = .ok after) :
    ∀ handler ∈ after.tools, Registrable handler.definition := by
  induction candidates generalizing before with
  | nil =>
      cases h
      exact hbefore
  | cons candidate rest ih =>
      unfold registerAll register at h
      cases hparsed : candidate.definition.bind toolDefinitionSchema with
      | none =>
          rw [hparsed] at h
          cases h
      | some parsed =>
          obtain ⟨definition, -, hdefinition⟩ := Option.bind_eq_some_iff.mp hparsed
          rw [hparsed] at h
          dsimp only at h
          split at h
          · cases h
          · next registry heq =>
              split at heq
              · cases heq
              split at heq
              · cases heq
                refine ih (fun handler hhandler => ?_) h
                rcases List.mem_append.mp hhandler with hhandler | hhandler
                · exact hbefore handler hhandler
                · rw [List.mem_singleton.mp hhandler]
                  exact ⟨definition, parsed, hdefinition, rfl⟩
              · cases heq

end ToolRegistry

/-- **A part of a catalogue can be published**, under the names it has. -/
theorem publishToolCatalog_registrable {definitions : List ToolDefinition}
    (h : ∀ definition ∈ definitions, Registrable definition)
    (hnames : (definitions.map ToolDefinition.name).Nodup) :
    ∃ tools, publishToolCatalog definitions = some tools := by
  have hpublished : ∃ published, definitions.mapM publishToolDefinition = some published ∧
      published.map PublishedToolDefinition.name = definitions.map ToolDefinition.name := by
    clear hnames
    induction definitions with
    | nil => exact ⟨[], rfl, rfl⟩
    | cons definition rest ih =>
        obtain ⟨first, hfirst, hname⟩ :=
          publishToolDefinition_registrable (h definition List.mem_cons_self)
        obtain ⟨others, hothers, hrest⟩ := ih fun d hd => h d (List.mem_cons_of_mem definition hd)
        refine ⟨first :: others, ?_, ?_⟩
        · rw [List.mapM_cons, hfirst, hothers]
          rfl
        · rw [List.map_cons, List.map_cons, hname, hrest]
  obtain ⟨published, hpublished, hsame⟩ := hpublished
  refine ⟨sortByKey PublishedToolDefinition.name published, ?_⟩
  unfold publishToolCatalog
  rw [hpublished, Option.bind_some, if_pos (hsame ▸ hnames)]

end SharedOS.Kernel
