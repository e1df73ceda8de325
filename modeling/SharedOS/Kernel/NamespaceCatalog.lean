/-
SharedOS.Kernel.NamespaceCatalog — a registry by namespace, and when its catalogue keeps the contract.

The kernel groups the definitions of a registry without a bound of its own. The contract bounds the
catalogue: so many namespaces, so many sources to each. Everything else the contract asks of a
catalogue holds of every registry (`catalogueKept_iff`).
-/
import SharedOS.Contracts.Parsed
import SharedOS.Foundation.Grouping
import SharedOS.Kernel.PublishedTool

namespace SharedOS.Kernel

open SharedOS.Foundation SharedOS.Contracts SharedOS.Core

/-- The loop of `namespaceCatalog`: under each namespace its sources, and how many tools it has. -/
def groupDefinitions (definitions : List ToolDefinition) : List (Tally JsString JsString) :=
  tally ToolDefinition.namespace (fun definition => [definition.source]) definitions

theorem groupDefinitions_tallied (definitions : List ToolDefinition) :
    Tallied ToolDefinition.namespace (fun definition => [definition.source]) definitions
      (groupDefinitions definitions) := tallied_tally definitions

/-! ## The catalogue -/

section Catalogue

variable [HostPlatform]

/-- The descriptor of one namespace. -/
def describeGroup (enabledToolNamespaces : List JsString) (group : Tally JsString JsString) :
    ToolNamespaceDescriptor where
  «namespace» := group.key
  sources := sortStrings group.values
  toolCount := group.count
  enabled := group.key ∈ enabledToolNamespaces

/-- The descriptors in the order of their names. -/
def namespaceDescriptors (definitions : List ToolDefinition) (enabledToolNamespaces : List JsString) :
    List ToolNamespaceDescriptor :=
  ((groupDefinitions definitions).map (describeGroup enabledToolNamespaces)).insertionSort
    fun left right => HostPlatform.localeCompare left.namespace right.namespace ≤ 0

/-- `namespaceCatalog`. -/
def ToolRegistry.namespaceCatalog (registry : ToolRegistry) (enabledToolNamespaces : List JsString) :
    ToolNamespaceCatalog :=
  let namespaces := namespaceDescriptors registry.definitions enabledToolNamespaces
  { namespaces
    summary :=
      { total := namespaces.length
        enabled := (namespaces.filter fun d => d.enabled).length
        disabled := (namespaces.filter fun d => !d.enabled).length } }

/-! ## When it keeps the contract -/

/-- The registry has no more namespaces, and no namespace more sources, than a catalogue may list. -/
def ToolRegistry.Listable (registry : ToolRegistry) : Prop :=
  (registry.tools.map fun handler => handler.definition.namespace).dedup.length ≤ 256 ∧
    ∀ name, ((registry.tools.filter fun handler => handler.definition.namespace = name).map
      fun handler => handler.definition.source).dedup.length ≤ 64

theorem mem_namespaceDescriptors {definitions : List ToolDefinition} {enabled : List JsString}
    {d : ToolNamespaceDescriptor} :
    d ∈ namespaceDescriptors definitions enabled ↔
      ∃ group ∈ groupDefinitions definitions, describeGroup enabled group = d := by
  unfold namespaceDescriptors
  rw [(List.perm_insertionSort _ _).mem_iff, List.mem_map]

theorem namespaceDescriptors_names (definitions : List ToolDefinition) (enabled : List JsString) :
    ((namespaceDescriptors definitions enabled).map ToolNamespaceDescriptor.namespace).Perm
      ((groupDefinitions definitions).map Tally.key) := by
  have h := (List.perm_insertionSort
    (fun left right : ToolNamespaceDescriptor =>
      HostPlatform.localeCompare left.namespace right.namespace ≤ 0)
    ((groupDefinitions definitions).map (describeGroup enabled))).map
      ToolNamespaceDescriptor.namespace
  rwa [List.map_map] at h

/-- As many namespaces are listed as the registry has. -/
theorem namespaces_length (registry : ToolRegistry) (enabled : List JsString) :
    (namespaceDescriptors registry.definitions enabled).length =
      (registry.tools.map fun handler => handler.definition.namespace).dedup.length := by
  rw [← List.length_map ToolNamespaceDescriptor.namespace,
    (namespaceDescriptors_names _ _).length_eq, List.length_map]
  refine (tally_length registry.definitions).trans (length_dedup_of_mem_iff (List.nodup_dedup _)
    fun name => ?_)
  rw [List.mem_dedup, List.mem_map]
  simp only [mem_definitions, List.mem_map]
  constructor
  · rintro ⟨_, ⟨handler, hhandler, rfl⟩, rfl⟩
    exact ⟨handler, hhandler, rfl⟩
  · rintro ⟨handler, hhandler, rfl⟩
    exact ⟨_, ⟨handler, hhandler, rfl⟩, rfl⟩

/-- A namespace is listed with as many sources as the registry has for it. -/
theorem sources_length {registry : ToolRegistry} {group : Tally JsString JsString}
    (hgroup : group ∈ groupDefinitions registry.definitions) :
    (sortStrings group.values).length =
      ((registry.tools.filter fun handler => handler.definition.namespace = group.key).map
        fun handler => handler.definition.source).dedup.length := by
  rw [(sortStrings_perm _).length_eq]
  refine (tally_values_length hgroup).trans (length_dedup_of_mem_iff (List.nodup_dedup _)
    fun source => ?_)
  rw [List.mem_dedup, List.mem_flatMap]
  simp only [List.mem_filter, mem_definitions, List.mem_map, decide_eq_true_eq, List.mem_singleton]
  constructor
  · rintro ⟨_, ⟨⟨handler, hhandler, rfl⟩, hns⟩, rfl⟩
    exact ⟨handler, ⟨hhandler, hns⟩, rfl⟩
  · rintro ⟨handler, ⟨hhandler, hns⟩, rfl⟩
    exact ⟨_, ⟨⟨handler, hhandler, rfl⟩, hns⟩, rfl⟩

section Kept

variable {registry : ToolRegistry} {enabled : List JsString} {group : Tally JsString JsString}

omit [HostPlatform] in
theorem Registrable.names {definition : ToolDefinition} (h : Registrable definition) :
    identifierSchema definition.namespace = some definition.namespace ∧
      identifierSchema definition.source = some definition.source := by
  obtain ⟨candidate, parsed, hparsed, rfl⟩ := h
  unfold toolDefinitionSchema at hparsed
  simp only [Option.bind_eq_bind, Option.bind_eq_some_iff] at hparsed
  obtain ⟨name, -, description, -, ns, hns, source, hsource, inputSchema, -, outputSchema, -,
    requirement, -, metadata, -, hagree⟩ := hparsed
  split at hagree
  · cases hagree
    exact ⟨trimmedString_idem hns, trimmedString_idem hsource⟩
  · cases hagree

/-- A namespace is listed as the contract asks, its sources apart. -/
theorem describeGroup_kept (hregistered : ∀ definition ∈ registry.definitions, Registrable definition)
    (hgroup : group ∈ groupDefinitions registry.definitions) :
    toolNamespaceDescriptorSchema (describeGroup enabled group) = some (describeGroup enabled group) ↔
      (sortStrings group.values).length ≤ 64 := by
  have htallied := groupDefinitions_tallied registry.definitions
  have hof := htallied.each group hgroup
  obtain ⟨definition, hdefinition, hkey⟩ := List.mem_map.mp
    ((htallied.keys group.key).mp (List.mem_map_of_mem hgroup))
  have hname : identifierSchema group.key = some group.key :=
    hkey ▸ (hregistered definition hdefinition).names.1
  have hsources : ∀ source ∈ sortStrings group.values, identifierSchema source = some source := by
    intro source hsource
    obtain ⟨owner, howner, -, hin⟩ := (hof.union source).mp (mem_sortStrings.mp hsource)
    rw [List.mem_singleton.mp hin]
    exact (hregistered owner howner).names.2
  have hfirst : definition.source ∈ sortStrings group.values :=
    mem_sortStrings.mpr ((hof.union _).mpr ⟨definition, hdefinition, hkey, List.mem_singleton_self _⟩)
  have hcount : (0 : ℤ) < group.count := Int.natCast_pos.mpr (htallied.counted group hgroup)
  have hnodup : (sortStrings group.values).Nodup :=
    (sortStrings_perm _).nodup_iff.mpr hof.distinct
  have hlist : arraySchema identifierSchema 1 64 (sortStrings group.values) =
      some (sortStrings group.values) ↔ (sortStrings group.values).length ≤ 64 := by
    rw [arraySchema_eq_self_iff]
    exact ⟨fun h => h.1.2, fun h => ⟨⟨List.length_pos_of_mem hfirst, h⟩, hsources⟩⟩
  rw [← hlist]
  unfold toolNamespaceDescriptorSchema describeGroup
  dsimp only
  rw [hname]
  cases hparsed : arraySchema identifierSchema 1 64 (sortStrings group.values) with
  | none => exact iff_of_false nofun nofun
  | some sources =>
      constructor
      · intro h
        change (if 0 < (group.count : ℤ) ∧ sources.Nodup then some _ else none) = some _ at h
        split at h
        · exact congrArg some (congrArg ToolNamespaceDescriptor.sources (Option.some.inj h))
        · cases h
      · intro h
        cases Option.some.inj h
        exact if_pos ⟨hcount, hnodup⟩

/-- Every namespace of the registry has a group of its own. -/
theorem groups_names (name : JsString) :
    (∃ group ∈ groupDefinitions registry.definitions, group.key = name) ↔
      ∃ handler ∈ registry.tools, handler.definition.namespace = name := by
  have htallied := groupDefinitions_tallied registry.definitions
  have hkeys := htallied.keys name
  rw [List.mem_map, List.mem_map] at hkeys
  refine hkeys.trans ?_
  simp only [mem_definitions, List.mem_map]
  constructor
  · rintro ⟨_, ⟨handler, hhandler, rfl⟩, hname⟩
    exact ⟨handler, hhandler, hname⟩
  · rintro ⟨handler, hhandler, hname⟩
    exact ⟨_, ⟨handler, hhandler, rfl⟩, hname⟩

/-- The descriptors are listed as the contract asks where there are not too many, of anything. -/
theorem namespaceDescriptors_kept
    (hregistered : ∀ definition ∈ registry.definitions, Registrable definition)
    (enabled : List JsString) :
    arraySchema toolNamespaceDescriptorSchema 0 256 (namespaceDescriptors registry.definitions enabled)
        = some (namespaceDescriptors registry.definitions enabled) ↔ registry.Listable := by
  rw [arraySchema_eq_self_iff, namespaces_length]
  refine and_congr (and_iff_right (Nat.zero_le _)) ?_
  constructor
  · intro h name
    by_cases hname : ∃ handler ∈ registry.tools, handler.definition.namespace = name
    · obtain ⟨group, hgroup, rfl⟩ := (groups_names name).mpr hname
      have hkept := h _ (mem_namespaceDescriptors.mpr ⟨group, hgroup, rfl⟩)
      rw [← sources_length hgroup]
      exact (describeGroup_kept hregistered hgroup).mp hkept
    · -- no tool, no source
      have hnone : (registry.tools.filter fun handler =>
          handler.definition.namespace = name) = [] := by
        rw [List.filter_eq_nil_iff]
        exact fun handler hhandler heq => hname ⟨handler, hhandler, of_decide_eq_true heq⟩
      rw [hnone]
      exact Nat.zero_le _
  · intro h d hd
    obtain ⟨group, hgroup, rfl⟩ := mem_namespaceDescriptors.mp hd
    refine (describeGroup_kept hregistered hgroup).mpr ?_
    rw [sources_length hgroup]
    exact h group.key

omit [HostPlatform] in
/-- The two counts of a summary, as the contract makes them. -/
theorem enabled_count (namespaces : List ToolNamespaceDescriptor) :
    ((namespaces.filter fun d => d.enabled).length : ℤ) = (summaryOf namespaces).enabled ∧
      ((namespaces.filter fun d => !d.enabled).length : ℤ) = (summaryOf namespaces).disabled := by
  have htotal := List.length_eq_length_filter_add (l := namespaces) fun d => d.enabled
  unfold summaryOf
  dsimp only
  rw [List.countP_eq_length_filter]
  omega

/-- **When the catalogue of a registry keeps the contract**: when no more namespaces and no more
sources are in it than may be listed. -/
theorem catalogueKept_iff
    (hregistered : ∀ definition ∈ registry.definitions, Registrable definition) :
    toolNamespaceCatalogSchema (registry.namespaceCatalog enabled) =
      some (registry.namespaceCatalog enabled) ↔ registry.Listable := by
  have hnames : ((namespaceDescriptors registry.definitions enabled).map
      ToolNamespaceDescriptor.namespace).Nodup :=
    (namespaceDescriptors_names _ _).nodup_iff.mpr
      (groupDefinitions_tallied registry.definitions).distinct
  rw [← namespaceDescriptors_kept hregistered enabled]
  unfold toolNamespaceCatalogSchema ToolRegistry.namespaceCatalog
  dsimp only
  cases hparsed : arraySchema toolNamespaceDescriptorSchema 0 256
      (namespaceDescriptors registry.definitions enabled) with
  | none => exact iff_of_false nofun nofun
  | some namespaces =>
      constructor
      · intro h
        change (if _ then some _ else none) = some _ at h
        split at h
        · exact congrArg some (congrArg ToolNamespaceCatalog.namespaces (Option.some.inj h))
        · cases h
      · intro h
        cases Option.some.inj h
        exact if_pos ⟨Int.natCast_nonneg _, Int.natCast_nonneg _, Int.natCast_nonneg _, hnames, rfl,
          (enabled_count _).1, (enabled_count _).2⟩

end Kept

end Catalogue

namespace Sample

/-- A tool that finds documents. -/
def finder : ToolHandler where
  definition :=
    { name := "files.find"
      description := "Find a document"
      «namespace» := "files"
      source := "files"
      readWrite := .read
      inputSchema := .obj []
      outputSchema := none
      requiredCapability :=
        { resource := { «namespace» := "files", path := ["docs"], owner := none }, action := "find" }
      annotations := none
      metadata := none }
  resolvesRequirement := false
  implementation := 0

end Sample

open scoped SharedOS.Foundation.Reference in
theorem catalogueKept_iff_finder :
    toolNamespaceCatalogSchema
        (ToolRegistry.namespaceCatalog ⟨[Sample.finder], List.nodup_singleton _⟩ ["files"]) =
      some (ToolRegistry.namespaceCatalog ⟨[Sample.finder], List.nodup_singleton _⟩ ["files"]) := by
  refine (catalogueKept_iff fun definition hdefinition => ?_).mpr ⟨by decide, fun name => ?_⟩
  · obtain rfl := List.mem_singleton.mp (mem_definitions.mp hdefinition)
    exact ⟨Sample.finder.definition, Sample.finder.definition, rfl, rfl⟩
  · refine (List.dedup_sublist _).length_le.trans ?_
    rw [List.length_map]
    exact (List.length_filter_le _ _).trans (by decide)

end SharedOS.Kernel
