/-
SharedOS.Kernel.NamespaceSettings — the kernel's update of a host's namespace selection.

The host owns the selection. The kernel checks the update, asks the host's settings port to apply it,
checks the selection that comes back and answers with the catalogue under it. Over a port that
applies the standard patch, the second check is the one that can refuse a valid update
(`updateKept_iff`).
-/
import SharedOS.Core.CanonicalForm
import SharedOS.Core.ToolNamespaceControl
import SharedOS.Kernel.InvokeTool
import SharedOS.Kernel.NamespaceCatalog

namespace SharedOS.Kernel

open SharedOS.Foundation SharedOS.Contracts SharedOS.Core

/-! ## The operation -/

/-- What an update asks: what a kernel operation does, and the host's settings port. -/
inductive SettingsOp where
  | kernel (o : KernelOp)
  | applyUpdate (context : AccessContext) (update : ToolNamespaceUpdate)

/-- What each operation is answered. -/
abbrev SettingsOp.Answer : SettingsOp → Type
  | .kernel o => o.Answer
  | .applyUpdate .. => Settled (List JsString)

/-- How an update rejects. -/
inductive SettingsError where
  /-- "tool namespace update does not match the SharedOS contract" -/
  | invalidUpdate
  /-- `MissingRegistrationError("tool namespace settings", "default")` -/
  | notRegistered
  /-- The settings port threw. -/
  | settingsThrew
  /-- "tool namespace settings returned an invalid selection" -/
  | invalidSelection
  | catalog (error : CatalogError)
  | kernel (error : KernelError)
  deriving DecidableEq

/-- The error is about the update: it, or what it made of the selection, was refused. -/
def SettingsError.RejectsUpdate (e : SettingsError) : Prop :=
  e = .invalidUpdate ∨ e = .settingsThrew ∨ e = .invalidSelection

/-- The programs of the settings. -/
abbrev SettingsM := Program SettingsOp SettingsOp.Answer SettingsError

/-- A kernel program among the settings. -/
def ofKernel {α : Type} (p : KernelM α) : SettingsM α :=
  Program.embed SettingsOp.kernel (fun _ x => x) SettingsError.kernel p

/-- `applyUpdate` of the host's settings port. -/
def applySettings (context : AccessContext) (update : ToolNamespaceUpdate) :
    SettingsM (Settled (List JsString)) :=
  Program.perform (SettingsOp.applyUpdate context update)

section Update

variable [HostPlatform]

/-- The `tool.namespace.selection.updated` record. -/
def selectionUpdated (catalog : ToolNamespaceCatalog) : AuditEventInput where
  type := .toolNamespaceSelectionUpdated
  outcome := .succeeded
  metadata := some (.obj [("enabledNamespaces",
    jsonStrings ((catalog.namespaces.filter fun d => d.enabled).map
      ToolNamespaceDescriptor.namespace))])

/-- What follows once the port has answered. -/
def selectionAnswered (kernel : SharedOSKernel) (context : AccessContext)
    (candidate : List JsString) : SettingsM ToolNamespaceCatalog := do
  ofKernel throwIfAborted
  match enabledToolNamespacesSchema candidate with
  | none => Program.throw .invalidSelection
  | some parsedEnabled =>
    let updatedContext := { context with enabledToolNamespaces := parsedEnabled }
    match ← ofKernel (resolveToolRegistry kernel updatedContext) with
    | .error e => Program.throw (.catalog e)
    | .ok tools =>
      let catalog := tools.namespaceCatalog parsedEnabled
      ofKernel do
        let event ← stampEvent updatedContext (selectionUpdated catalog)
        recordOutcome kernel event
      pure catalog

/-- `updateToolNamespaces`. -/
def updateToolNamespaces (kernel : SharedOSKernel) (hasSettings : Bool) (context : AccessContext)
    (update : ToolNamespaceUpdate) : SettingsM ToolNamespaceCatalog := do
  ofKernel throwIfAborted
  match toolNamespaceUpdateSchema update with
  | none => Program.throw .invalidUpdate
  | some parsedUpdate =>
    if hasSettings then
      match ← applySettings context parsedUpdate with
      | .rejected => Program.throw .settingsThrew
      | .fulfilled candidate => selectionAnswered kernel context candidate
    else Program.throw .notRegistered

end Update

/-! ## What can reject -/

/-- A program over a narrower interface fails as it would there. -/
theorem ofKernel_error {α : Type} {p : KernelM α} {t : List (Event SettingsOp.Answer)}
    {e : SettingsError} (h : Program.Finishes (ofKernel p) t (.error e)) :
    ∃ error, e = .kernel error :=
  Program.embed_error h

section Rejects

variable [HostPlatform] {kernel : SharedOSKernel} {context : AccessContext}

/-- Over a candidate its schema accepts, only the kernel and its catalogue can fail. -/
theorem selectionAnswered_error {candidate : List JsString} {t : List (Event SettingsOp.Answer)}
    {e : SettingsError}
    (h : Program.Finishes (selectionAnswered kernel context candidate) t (.error e))
    (haccepted : (enabledToolNamespacesSchema candidate).isSome) : ¬ e.RejectsUpdate := by
  have hkernel : ∀ error, ¬ (SettingsError.kernel error).RejectsUpdate := by
    rintro error (h | h | h) <;> cases h
  have hcatalog : ∀ error, ¬ (SettingsError.catalog error).RejectsUpdate := by
    rintro error (h | h | h) <;> cases h
  obtain ⟨parsed, hparsed⟩ := Option.isSome_iff_exists.mp haccepted
  unfold selectionAnswered at h
  rcases Program.finishes_bind.mp h with ⟨e', heq, hthrow⟩ | ⟨_, _, _, _, -, hrest⟩
  · cases heq
    obtain ⟨error, rfl⟩ := ofKernel_error hthrow
    exact hkernel error
  · rw [hparsed] at hrest
    rcases Program.finishes_bind.mp hrest with ⟨e', heq, hthrow⟩ | ⟨outcome, _, _, _, -, hrest⟩
    · cases heq
      obtain ⟨error, rfl⟩ := ofKernel_error hthrow
      exact hkernel error
    · cases outcome with
      | error failure =>
          cases (Program.finishes_throw.mp hrest).2
          exact hcatalog failure
      | ok tools =>
          rcases Program.finishes_bind.mp hrest with ⟨e', heq, hthrow⟩ | ⟨_, _, _, _, -, hdone⟩
          · cases heq
            obtain ⟨error, rfl⟩ := ofKernel_error hthrow
            exact hkernel error
          · cases (Program.finishes_done.mp hdone).2

/-- The settings port applies the standard patch to the selection it holds. -/
def PortApplies (current : List JsString) (t : List (Event SettingsOp.Answer)) : Prop :=
  ∀ context update answer, (⟨.applyUpdate context update, answer⟩ : Event SettingsOp.Answer) ∈ t →
    answer = match applyToolNamespaceUpdate current update with
      | none => .rejected
      | some result => .fulfilled result

/-- The run up to the port's answer, and the run after it. -/
theorem updateToolNamespaces_error {update patch : ToolNamespaceUpdate}
    {t : List (Event SettingsOp.Answer)} {e : SettingsError}
    (h : Program.Finishes (updateToolNamespaces kernel true context update) t (.error e))
    (hupdate : toolNamespaceUpdateSchema update = some patch) :
    (∃ error, e = .kernel error) ∨
      ∃ answer rest, (⟨.applyUpdate context patch, answer⟩ : Event SettingsOp.Answer) ∈ t ∧
        ((answer = .rejected ∧ e = .settingsThrew) ∨ ∃ candidate, answer = .fulfilled candidate ∧
          Program.Finishes (selectionAnswered kernel context candidate) rest (.error e)) := by
  unfold updateToolNamespaces at h
  rcases Program.finishes_bind.mp h with ⟨e', heq, hthrow⟩ | ⟨_, t₁, t₂, rfl, -, hrest⟩
  · cases heq
    exact .inl (ofKernel_error hthrow)
  · rw [hupdate] at hrest
    simp only [if_true, applySettings, Program.perform_bind] at hrest
    obtain ⟨answer, rest, rfl, htail⟩ := Program.finishes_ask.mp hrest
    refine .inr ⟨answer, rest, List.mem_append_right _ List.mem_cons_self, ?_⟩
    cases answer with
    | rejected =>
        cases (Program.finishes_throw.mp htail).2
        exact .inl ⟨rfl, rfl⟩
    | fulfilled candidate => exact .inr ⟨candidate, rfl, htail⟩

/-! ## The update kept -/

/-- An update of a selection keeps its promise: what it makes is a selection, holds just what the
update implies, is left as it is by the same update, and no kernel over such a port rejects it. -/
structure UpdateKept (current selection : List JsString) (update patch : ToolNamespaceUpdate)
    (result : List JsString) : Prop where
  returned : applyToolNamespaceUpdate current update = some result
  accepted : enabledToolNamespacesSchema result = some result
  implied : ∀ name, name ∈ result ↔ name ∈ impliedSelection selection patch
  again : applyToolNamespaceUpdate result update = some result
  served : ∀ kernel context t e,
    Program.Finishes (updateToolNamespaces kernel true context update) t (.error e) →
    PortApplies current t → ¬ e.RejectsUpdate

omit kernel context in
/-- **An update is kept just when what it implies fits into a selection.** The selection and the
update are each bounded, and their union is not. -/
theorem updateKept_iff (hcollation : ConsistentComparison HostPlatform.localeCompare)
    {current selection : List JsString} {update patch : ToolNamespaceUpdate}
    (hcurrent : enabledToolNamespacesSchema current = some selection)
    (hupdate : toolNamespaceUpdateSchema update = some patch) :
    (∃ result, UpdateKept current selection update patch result) ↔
      (impliedSelection selection patch).card ≤ 256 := by
  constructor
  · rintro ⟨result, hkept⟩
    exact (applied_accepted_iff hcurrent hupdate hkept.returned).mp hkept.accepted
  · intro hcard
    have hreturned := applyToolNamespaceUpdate_eq hcurrent hupdate
    have haccepted := (applied_accepted_iff hcurrent hupdate hreturned).mpr hcard
    refine ⟨_, hreturned, haccepted, (applied_spec hcurrent hupdate hreturned).2.1,
      applied_again hcollation hcurrent hupdate hreturned haccepted, ?_⟩
    intro kernel context t e hrun hport
    -- the kernel hands the port the parsed update, and the port parses it once more
    have hpatch := toolNamespaceUpdateSchema_idem hupdate
    rcases updateToolNamespaces_error hrun hupdate with ⟨error, rfl⟩ | ⟨answer, rest, hasked, hend⟩
    · rintro (h | h | h) <;> cases h
    · have hanswer := hport context patch answer hasked
      rw [applyToolNamespaceUpdate_eq hcurrent hpatch] at hanswer
      rcases hend with ⟨rfl, -⟩ | ⟨candidate, rfl, hrest⟩
      · cases hanswer
      · cases hanswer
        exact selectionAnswered_error hrest (Option.isSome_iff_exists.mpr ⟨_, haccepted⟩)

end Rejects

/-! ## A selection with no room -/

namespace Sample

/-- As many namespaces as a selection may hold. -/
def fullSelection : List JsString :=
  (List.range 256).map fun n => [Fin.ofNat 65536 (0x4E00 + n)]

/-- An update that enables one namespace more. -/
def oneMore : ToolNamespaceUpdate where
  enable := some ["calendar"]
  disable := none

/-- The same, in the place of another. -/
def oneForAnother : ToolNamespaceUpdate where
  enable := some ["calendar"]
  disable := some [[0x4E00]]

end Sample

open scoped SharedOS.Foundation.Reference in
theorem updateKept_iff_full :
    (∃ result, UpdateKept Sample.fullSelection Sample.fullSelection Sample.oneForAnother
      Sample.oneForAnother result) ↔
      (impliedSelection Sample.fullSelection Sample.oneForAnother).card ≤ 256 :=
  updateKept_iff Core.Sample.consistent_codeUnits (by decide +kernel) (by decide +kernel)

open scoped SharedOS.Foundation.Reference in
/-- A full selection and an update that enables one namespace: both are valid, and what the one makes
of the other is not. -/
theorem full_selection_outgrown :
    enabledToolNamespacesSchema Sample.fullSelection = some Sample.fullSelection ∧
    toolNamespaceUpdateSchema Sample.oneMore = some Sample.oneMore ∧
    ¬ ∃ result, UpdateKept Sample.fullSelection Sample.fullSelection Sample.oneMore Sample.oneMore
      result := by
  have hcurrent : enabledToolNamespacesSchema Sample.fullSelection = some Sample.fullSelection := by
    decide +kernel
  have hupdate : toolNamespaceUpdateSchema Sample.oneMore = some Sample.oneMore := by
    decide +kernel
  refine ⟨hcurrent, hupdate, ?_⟩
  rintro ⟨result, hkept⟩
  have hcard := (applied_accepted_iff hcurrent hupdate hkept.returned).mp hkept.accepted
  have hlarge : (impliedSelection Sample.fullSelection Sample.oneMore).card = 257 := by
    decide +kernel
  omega

end SharedOS.Kernel
