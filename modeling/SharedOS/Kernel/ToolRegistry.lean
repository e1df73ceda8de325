/-
SharedOS.Kernel.ToolRegistry — registered handlers, and the derivation of a turn's catalogue.

A registry holds at most one handler under a name, and carries that as a field. A definition is
read as untrusted when it is registered. The catalogue of a context is the host's own registry,
the message tool where one is configured, and then what each provider lists, in the order of their
ids. The derivation runs under a signal of its caller's choosing and reads it before each provider
and after a provider that throws.
-/
import SharedOS.Contracts.Tool
import SharedOS.Foundation.Program
import Mathlib.Data.List.Sort

namespace SharedOS.Kernel

open SharedOS.Foundation SharedOS.Contracts

/-! ## Registration -/

mutual

/-- `JSON.parse(JSON.stringify(value))` on what the schema returned: `-0` comes back as `0`. -/
def cloneJson : Json → Json
  | .num .negZero => .num (.finite 0)
  | .arr items => .arr (cloneJsonItems items)
  | .obj entries => .obj (cloneJsonEntries entries)
  | v => v

/-- The clone of a list of values, one by one. -/
def cloneJsonItems : List Json → List Json
  | [] => []
  | v :: rest => cloneJson v :: cloneJsonItems rest

/-- The clone of the entries of an object. The keys stay. -/
def cloneJsonEntries : List (JsString × Json) → List (JsString × Json)
  | [] => []
  | (k, v) :: rest => (k, cloneJson v) :: cloneJsonEntries rest

end

@[simp] theorem cloneJsonItems_eq_map (items : List Json) :
    cloneJsonItems items = items.map cloneJson := by
  induction items with
  | nil => rfl
  | cons v rest ih => simp only [cloneJsonItems, ih, List.map_cons]

@[simp] theorem cloneJsonEntries_eq_map (entries : List (JsString × Json)) :
    cloneJsonEntries entries = entries.map fun e => (e.1, cloneJson e.2) := by
  induction entries with
  | nil => rfl
  | cons e rest ih => simp only [cloneJsonEntries, ih, List.map_cons]

/-- `structuredClone` of a definition, where its free-form fields are concerned. -/
def cloneDefinition (d : ToolDefinition) : ToolDefinition :=
  { d with
    inputSchema := cloneJson d.inputSchema
    outputSchema := d.outputSchema.map cloneJson
    metadata := d.metadata.map cloneJson }

/-- A registered handler. Its three functions are host code, which `implementation` names, and
`resolvesRequirement` says whether it brings a requirement resolver. -/
structure ToolHandler where
  definition : ToolDefinition
  resolvesRequirement : Bool
  implementation : ℕ

/-- A handler as a host passes it. A definition that has not the shape of one is absent. -/
structure CandidateHandler where
  definition : Option ToolDefinition
  resolvesRequirement : Bool
  implementation : ℕ

/-- How a tool is refused at registration. -/
inductive RegistrationError where
  | notTheContract
  | emptyName
  | duplicate (name : JsString)
  deriving DecidableEq

/-- The text a registration throws. -/
def RegistrationError.message : RegistrationError → JsString
  | .notTheContract => "tool definition does not match the SharedOS contract"
  | .emptyName => "tool name must not be empty"
  | .duplicate name => JsString.ofString "tool is already registered: " ++ name

/-- Handlers under distinct names, in the order they were registered. -/
structure ToolRegistry where
  tools : List ToolHandler
  distinct : (tools.map fun handler => handler.definition.name).Nodup

namespace ToolRegistry

/-- A registry before anything is registered. -/
def empty : ToolRegistry := ⟨[], List.nodup_nil⟩

/-- The handler of a name. -/
def get (registry : ToolRegistry) (name : JsString) : Option ToolHandler :=
  registry.tools.find? fun handler => handler.definition.name = name

/-- Whether the name is taken. -/
def has (registry : ToolRegistry) (name : JsString) : Bool := (registry.get name).isSome

theorem get_mem {registry : ToolRegistry} {name : JsString} {handler : ToolHandler}
    (h : registry.get name = some handler) :
    handler ∈ registry.tools ∧ handler.definition.name = name := by
  refine ⟨List.mem_of_find?_eq_some h, ?_⟩
  simpa using List.find?_some h

/-- A name is one handler's. -/
theorem eq_of_name (registry : ToolRegistry) {left right : ToolHandler}
    (hleft : left ∈ registry.tools) (hright : right ∈ registry.tools)
    (h : left.definition.name = right.definition.name) : left = right :=
  List.inj_on_of_nodup_map registry.distinct hleft hright h

/-- The handlers with one more, under a name none of them has. -/
def add (registry : ToolRegistry) (handler : ToolHandler)
    (h : registry.has handler.definition.name = false) : ToolRegistry where
  tools := registry.tools ++ [handler]
  distinct := by
    have hfresh : ∀ other ∈ registry.tools,
        other.definition.name ≠ handler.definition.name := by
      intro other hother hname
      have hnone := List.find?_eq_none.mp (Option.not_isSome_iff_eq_none.mp (Bool.eq_false_iff.mp h))
      exact hnone other hother (by simpa using hname)
    rw [List.map_append]
    apply List.Nodup.append registry.distinct (List.nodup_singleton _)
    intro name hleft hright
    obtain ⟨other, hother, rfl⟩ := List.mem_map.mp hleft
    exact hfresh other hother (List.mem_singleton.mp hright)

/-- `register`. -/
def register (registry : ToolRegistry) (candidate : CandidateHandler) :
    Except RegistrationError ToolRegistry :=
  match candidate.definition.bind toolDefinitionSchema with
  | none => .error .notTheContract
  | some parsed =>
    if parsed.name.length = 0 then .error .emptyName
    else if h : registry.has parsed.name = false then
      .ok (registry.add
        { definition := cloneDefinition parsed
          resolvesRequirement := candidate.resolvesRequirement
          implementation := candidate.implementation } h)
    else .error (.duplicate parsed.name)

/-- Registering in order, up to the first refusal. -/
def registerAll (registry : ToolRegistry) :
    List CandidateHandler → Except RegistrationError ToolRegistry
  | [] => .ok registry
  | candidate :: rest =>
    match registry.register candidate with
    | .error e => .error e
    | .ok registry => registry.registerAll rest

end ToolRegistry

/-! ## Deriving a catalogue -/

/-- Why a catalogue could not be derived. -/
inductive CatalogError where
  /-- The signal's own reason, thrown by `throwIfAborted`. -/
  | aborted
  | providerFailed
  | invalidCatalog
  | registration (error : RegistrationError)
  deriving DecidableEq

/-- The text of a catalogue error. An abort carries the signal's own reason. -/
def CatalogError.message : CatalogError → Option JsString
  | .aborted => none
  | .providerFailed => some "A context tool provider failed to resolve its catalog"
  | .invalidCatalog => some "A context tool provider returned an invalid catalog"
  | .registration error => some error.message

/-- What a call of `listTools` came to. -/
inductive ListToolsAnswer where
  | threw
  | notAnArray
  | handlers (candidates : List CandidateHandler)

/-- What a derivation asks of its surroundings. -/
structure CatalogPorts (m : Type → Type) where
  aborted : m Bool
  listTools : JsString → AccessContext → m ListToolsAnswer

/-- What a kernel derives a catalogue from. -/
structure CatalogSources where
  tools : ToolRegistry
  /-- The message tool, when a transport and a router are configured. -/
  messageTool : Option CandidateHandler
  /-- The ids of the context tool providers. -/
  toolProviders : List JsString

section Derive

variable {m : Type → Type} [Monad m]

/-- The loop over the providers. -/
def listProviders (ports : CatalogPorts m) (context : AccessContext) :
    ToolRegistry → List JsString → m (Except CatalogError ToolRegistry)
  | registry, [] => pure (.ok registry)
  | registry, provider :: rest => do
    if ← ports.aborted then pure (.error .aborted)
    else
      match ← ports.listTools provider context with
      | .threw =>
        if ← ports.aborted then pure (.error .aborted) else pure (.error .providerFailed)
      | .notAnArray => pure (.error .invalidCatalog)
      | .handlers candidates =>
        match registry.registerAll candidates with
        | .error e => pure (.error (.registration e))
        | .ok registry => listProviders ports context registry rest

/-- `#deriveToolRegistry`. -/
def deriveToolRegistry [HostPlatform] (ports : CatalogPorts m) (sources : CatalogSources)
    (context : AccessContext) : m (Except CatalogError ToolRegistry) :=
  match sources.tools.registerAll sources.messageTool.toList with
  | .error e => pure (.error (.registration e))
  | .ok registry =>
    listProviders ports context registry
      (sources.toolProviders.insertionSort fun a b => HostPlatform.localeCompare a b ≤ 0)

end Derive

end SharedOS.Kernel
