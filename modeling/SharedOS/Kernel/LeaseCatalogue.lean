/-
SharedOS.Kernel.LeaseCatalogue — one catalogue for the length of a lease.

A derivation leaves the lease's slot only when it has rejected, so at most one ever fulfils and
whoever obtains a registry obtains that one. Listings are cut from it, and a listing holds its hash
on the lease, where the records of later calls read it.

What the slot does not guard is who is served by a derivation that was lost already: an operation
that arrives while such a derivation is in the slot joins it.
-/
import SharedOS.Foundation.Updates
import SharedOS.Kernel.HeldRegistry
import SharedOS.Kernel.PublishedTool

namespace SharedOS.Kernel

open SharedOS.Foundation SharedOS.Contracts

/-! ## The machine -/

/-- A record of the turn that names a catalogue. A listing is kept with the names it came to. -/
inductive CatalogueRecord where
  /-- `tool.catalog.listed`. -/
  | listed (tools : List JsString) (catalogHash : JsString)
  /-- `tool.invoked`. -/
  | invoked (catalogHash : Option JsString)

/-- The hash the record names. -/
def CatalogueRecord.hash : CatalogueRecord → Option JsString
  | .listed _ catalogHash => some catalogHash
  | .invoked catalogHash => catalogHash

/-- A lease, with the registry it holds and the hash that was published under it. -/
structure CatalogueState where
  held : RegistryState
  /-- `lease.catalogHash`. -/
  catalogHash : Option JsString
  records : List CatalogueRecord

/-- Before anything is leased or listed. -/
def CatalogueState.empty : CatalogueState where
  held := .empty
  catalogHash := none
  records := []

/-- What may happen next. -/
inductive CatalogueLabel where
  /-- A step of the operations that share the registry. -/
  | registry (label : RegistryLabel)
  /-- A listing is published, of the definitions its caller may see. -/
  | list (operation : ℕ) (visible : ToolDefinition → Bool)
  /-- A listing is published where no authority could be established. -/
  | listUnavailable
  /-- A call is recorded, whoever answered it. -/
  | invoke

section Machine

variable [HostPlatform] {sources : CatalogSources}

/-- `#holdCatalogHash`, and the record that is built with it. -/
def CatalogueState.holdCatalogHash (s : CatalogueState) (tools : List JsString)
    (hash : JsString) : CatalogueState :=
  { s with catalogHash := some hash, records := s.records ++ [.listed tools hash] }

/-- One step. -/
def catalogueStep (sources : CatalogSources) (s : CatalogueState) :
    CatalogueLabel → Option CatalogueState
  | .registry label => (registryStep sources s.held label).map fun held => { s with held }
  | .list operation visible =>
    match s.held.operations[operation]? with
    | some { signalAborted := _, stage := .obtained _ registry } =>
      let allowed := registry.definitions.filter visible
      (publishToolCatalog allowed).map fun published =>
        s.holdCatalogHash (allowed.map ToolDefinition.name) (catalogHash published)
    | _ => none
  | .listUnavailable => some (s.holdCatalogHash [] (catalogHash []))
  | .invoke => some { s with records := s.records ++ [.invoked s.catalogHash] }

/-! ## What a step of the registry can do -/

omit [HostPlatform] in
/-- The caller's signal wins a race that is still open, and no other. -/
def WaitStage.aborts : WaitStage → WaitStage
  | .racing derivation => .abandoning derivation
  | stage => stage

/-- Every way a step changes the derivations, the slot and the waits. -/
inductive RegistryMove (sources : CatalogSources) (s : RegistryState) :
    RegistryLabel → RegistryState → Prop
  | joined {context : AccessContext} {aborted : Bool} {d : ℕ} {held : Derivation}
      (hslot : s.registry = some d) (hd : s.derivations[d]? = some held) :
      RegistryMove sources s (.arrive context aborted) (s.enter d held aborted)
  | started {context : AccessContext} {aborted : Bool} (hslot : s.registry = none) :
      RegistryMove sources s (.arrive context aborted)
        (RegistryState.enter
          { s with
            derivations := s.derivations ++ [startDerivation sources context]
            registry := some s.derivations.length }
          s.derivations.length (startDerivation sources context) aborted)
  | aborted {i : ℕ} {operation : RegistryWait} (hop : s.operations[i]? = some operation) :
      RegistryMove sources s (.abort i)
        { s with
          operations := s.operations.set i { signalAborted := true, stage := operation.stage.aborts } }
  | left {label : RegistryLabel} {i d : ℕ} {held : Derivation} {operation : RegistryWait}
      {stage : WaitStage} (hlabel : label = .abandon i ∨ label = .deliver i)
      (hop : s.operations[i]? = some operation)
      (hwaits : operation.stage.waitsOn d = true) (hd : s.derivations[d]? = some held)
      (hstage : stage = .gaveUp ∨
        ∃ outcome, held.thread = .done outcome ∧ stage = .ofOutcome d outcome) :
      RegistryMove sources s label
        { s with
          derivations := s.derivations.set d held.leave
          operations :=
            s.operations.set i { signalAborted := operation.signalAborted, stage := stage } }
  | listed {d : ℕ} {answer : ListToolsAnswer} {held held' : Derivation}
      (hd : s.derivations[d]? = some held) (hrunning : ∀ outcome, held.thread ≠ .done outcome) :
      RegistryMove sources s (.listed d answer)
        { s with derivations := s.derivations.set d held' }
  | fulfilled {d : ℕ} {held : Derivation} {registry : ToolRegistry}
      (hd : s.derivations[d]? = some held) (hthread : held.thread = .done (.ok registry)) :
      RegistryMove sources s (.observe d)
        { s with derivations := s.derivations.set d { held with settled := true } }
  | rejected {d : ℕ} {held : Derivation} {error : CatalogError}
      (hd : s.derivations[d]? = some held) (hthread : held.thread = .done (.error error)) :
      RegistryMove sources s (.observe d)
        { s with
          derivations := s.derivations.set d { held with settled := true }
          registry := if s.registry = some d then none else s.registry }

theorem registryStep_moves {s s' : RegistryState} {label : RegistryLabel}
    (hstep : registryStep sources s label = some s') : RegistryMove sources s label s' := by
  cases label with
  | arrive context aborted =>
      simp only [registryStep, RegistryState.hold] at hstep
      cases hslot : s.registry with
      | some d =>
          rw [hslot] at hstep
          dsimp only at hstep
          split at hstep
          · cases hstep
          · next held hd =>
              cases hstep
              exact .joined hslot hd
      | none =>
          rw [hslot] at hstep
          dsimp only at hstep
          rw [List.getElem?_concat_length] at hstep
          cases hstep
          exact .started hslot
  | abort i =>
      simp only [registryStep] at hstep
      split at hstep
      · cases hstep
      · next operation hop =>
          cases hstep
          exact .aborted hop
  | abandon i =>
      simp only [registryStep] at hstep
      split at hstep
      · next signalAborted d hop =>
          split at hstep
          · cases hstep
          · next held hd =>
              cases hstep
              exact .left (.inl rfl) hop (beq_self_eq_true d) hd (.inl rfl)
      · cases hstep
  | listed d answer =>
      simp only [registryStep] at hstep
      split at hstep
      · cases hstep
      · next held hd =>
          split at hstep
          · next hthread =>
              cases hstep
              refine .listed hd fun outcome hdone => ?_
              rw [hthread] at hdone
              cases hdone
          · cases hstep
  | observe d =>
      simp only [registryStep] at hstep
      split at hstep
      · cases hstep
      · next held hd =>
          split at hstep
          · next outcome hthread _ =>
              cases hstep
              cases outcome with
              | ok registry => exact .fulfilled hd hthread
              | error e => exact .rejected hd hthread
          · cases hstep
  | deliver i =>
      simp only [registryStep] at hstep
      split at hstep
      · next signalAborted d hop =>
          split at hstep
          · cases hstep
          · next held hd =>
              split at hstep
              · next outcome hthread _ =>
                  cases hstep
                  exact .left (.inr rfl) hop (beq_self_eq_true d) hd (.inr ⟨outcome, hthread, rfl⟩)
              · cases hstep
      · cases hstep

/-! ## One derivation fulfils -/

/-- A derivation that is not in the slot has rejected, and a registry that was obtained is what its
derivation fulfilled with. -/
structure OneFulfils (s : RegistryState) : Prop where
  gone : ∀ (d : ℕ) (held : Derivation), s.derivations[d]? = some held → s.registry ≠ some d →
    ∃ error, held.thread = .done (.error error)
  obtained : ∀ operation ∈ s.operations, ∀ d registry, operation.stage = .obtained d registry →
    ∃ held, s.derivations[d]? = some held ∧ held.thread = .done (.ok registry)

/-- What has settled stays as it settled. -/
def KeepsSettled (derivations derivations' : List Derivation) : Prop :=
  ∀ (d : ℕ) (held : Derivation) outcome, derivations[d]? = some held →
    held.thread = .done outcome →
      ∃ held', derivations'[d]? = some held' ∧ held'.thread = .done outcome

section Steps

variable {s s' : RegistryState} {label : RegistryLabel}

omit [HostPlatform] in
theorem keepsSettled_set {derivations : List Derivation} {d : ℕ} {held held' : Derivation}
    (hd : derivations[d]? = some held)
    (hdone : ∀ outcome, held.thread = .done outcome → held'.thread = .done outcome) :
    KeepsSettled derivations (derivations.set d held') := by
  intro e other outcome he hother
  by_cases hde : d = e
  · subst hde
    rw [hd] at he
    cases he
    exact ⟨held', List.getElem?_set_self (List.getElem?_eq_some_iff.mp hd).1, hdone outcome hother⟩
  · exact ⟨other, (List.getElem?_set_ne hde).trans he, hother⟩

theorem RegistryMove.keepsSettled (hmove : RegistryMove sources s label s') :
    KeepsSettled s.derivations s'.derivations := by
  cases hmove with
  | joined _ hd => exact keepsSettled_set hd fun _ h => h
  | started =>
      intro e other outcome he hother
      have hlt := (List.getElem?_eq_some_iff.mp he).1
      refine ⟨other, ?_, hother⟩
      show ((s.derivations ++ _).set s.derivations.length _)[e]? = _
      rw [List.getElem?_set_ne (Nat.ne_of_gt hlt), List.getElem?_append_left hlt]
      exact he
  | aborted => exact fun _ other _ he hother => ⟨other, he, hother⟩
  | left _ _ _ hd => exact keepsSettled_set hd fun _ h => h
  | listed hd hrunning => exact keepsSettled_set hd fun outcome h => absurd h (hrunning outcome)
  | fulfilled hd => exact keepsSettled_set hd fun _ h => h
  | rejected hd => exact keepsSettled_set hd fun _ h => h

omit [HostPlatform] in
/-- A registry that was obtained before the step is still what its derivation fulfilled with. -/
theorem OneFulfils.stillObtained (h : OneFulfils s)
    (hkeeps : KeepsSettled s.derivations s'.derivations) {operation : RegistryWait}
    (hmem : operation ∈ s.operations) {d : ℕ} {registry : ToolRegistry}
    (hstage : operation.stage = .obtained d registry) :
    ∃ held, s'.derivations[d]? = some held ∧ held.thread = .done (.ok registry) := by
  obtain ⟨held, hd, hthread⟩ := h.obtained operation hmem d registry hstage
  exact hkeeps d held _ hd hthread

omit [HostPlatform] in
/-- A derivation outside the slot has rejected, after one of them changes without leaving it. -/
theorem OneFulfils.gone_set (h : OneFulfils s) {d : ℕ} {held held' : Derivation}
    (hd : s.derivations[d]? = some held)
    (hchange : s.registry ≠ some d → ∀ outcome, held.thread = .done outcome →
      held'.thread = .done outcome) :
    ∀ (e : ℕ) (other : Derivation), (s.derivations.set d held')[e]? = some other →
      s.registry ≠ some e → ∃ error, other.thread = .done (.error error) := by
  intro e other he hslot
  rcases getElem?_set_cases he with ⟨rfl, rfl⟩ | ⟨-, he⟩
  · obtain ⟨error, hthread⟩ := h.gone e held hd hslot
    exact ⟨error, hchange hslot _ hthread⟩
  · exact h.gone e other he hslot

theorem registryStep_oneFulfils (h : OneFulfils s)
    (hstep : registryStep sources s label = some s') : OneFulfils s' := by
  have hmove := registryStep_moves hstep
  have hkeeps := hmove.keepsSettled
  cases hmove with
  | @joined context aborted d held hslot hd =>
      refine ⟨h.gone_set hd fun _ _ hdone => hdone, fun operation hmem e registry hstage => ?_⟩
      rcases List.mem_append.mp hmem with hmem | hmem
      · exact h.stillObtained hkeeps hmem hstage
      · rw [List.mem_singleton.mp hmem] at hstage
        cases aborted <;> cases hstage
  | @started context aborted hslot =>
      refine ⟨fun e other he hne => ?_, fun operation hmem e registry hstage => ?_⟩
      · -- the new derivation is in the slot, and nothing was in it before
        rcases getElem?_set_cases he with ⟨rfl, -⟩ | ⟨hother, he⟩
        · exact absurd rfl hne
        · rcases getElem?_append_singleton he with he | ⟨hlast, -⟩
          · exact h.gone e other he (by rw [hslot]; exact nofun)
          · exact absurd hlast hother
      · rcases List.mem_append.mp hmem with hmem | hmem
        · exact h.stillObtained hkeeps hmem hstage
        · rw [List.mem_singleton.mp hmem] at hstage
          cases aborted <;> cases hstage
  | @aborted i operation hop =>
      refine ⟨h.gone, fun other hmem e registry hstage => ?_⟩
      rcases List.mem_or_eq_of_mem_set hmem with hmem | rfl
      · exact h.obtained other hmem e registry hstage
      · refine h.obtained operation (List.mem_of_getElem? hop) e registry ?_
        unfold WaitStage.aborts at hstage
        split at hstage
        · cases hstage
        · exact hstage
  | @left _ i d held operation stage _ hop hwaits hd hstage =>
      refine ⟨h.gone_set hd fun _ _ hdone => hdone, fun other hmem e registry hobtained => ?_⟩
      rcases List.mem_or_eq_of_mem_set hmem with hmem | rfl
      · exact h.stillObtained hkeeps hmem hobtained
      · rcases hstage with rfl | ⟨outcome, hthread, rfl⟩
        · cases hobtained
        · cases outcome with
          | error _ => cases hobtained
          | ok _ =>
              cases hobtained
              exact hkeeps d held _ hd hthread
  | @listed d answer held held' hd hrunning =>
      refine ⟨h.gone_set hd fun _ outcome hdone => absurd hdone (hrunning outcome),
        fun other hmem e registry hstage => h.stillObtained hkeeps hmem hstage⟩
  | @fulfilled d held registry hd hthread =>
      exact ⟨h.gone_set hd fun _ _ hdone => hdone,
        fun other hmem e registry hstage => h.stillObtained hkeeps hmem hstage⟩
  | @rejected d held error hd hthread =>
      refine ⟨fun e other he hslot => ?_,
        fun other hmem e registry hstage => h.stillObtained hkeeps hmem hstage⟩
      by_cases hheld : s.registry = some d
      · rcases getElem?_set_cases he with ⟨rfl, rfl⟩ | ⟨hne, he⟩
        · exact ⟨error, hthread⟩
        · refine h.gone e other he fun hslot' => hne ?_
          exact Option.some.inj (hslot'.symm.trans hheld)
      · rw [if_neg hheld] at hslot
        exact @OneFulfils.gone_set s h d held { held with settled := true } hd
          (fun _ _ hdone => hdone) e other he hslot

omit [HostPlatform] in
theorem OneFulfils.empty : OneFulfils .empty where
  gone _ _ h := by cases h
  obtained _ h := absurd h List.not_mem_nil

omit [HostPlatform] in
/-- **At most one derivation ever fulfils.** -/
theorem OneFulfils.unique (h : OneFulfils s) {d d' : ℕ} {held held' : Derivation}
    (hd : s.derivations[d]? = some held) (hd' : s.derivations[d']? = some held')
    (hfulfilled : held.Fulfilled) (hfulfilled' : held'.Fulfilled) : d = d' := by
  have hslot : ∀ {e : ℕ} {other : Derivation}, s.derivations[e]? = some other → other.Fulfilled →
      s.registry = some e := by
    intro e other he ⟨registry, hthread⟩
    by_contra hne
    obtain ⟨error, hrejected⟩ := h.gone e other he hne
    rw [hthread] at hrejected
    cases hrejected
  exact Option.some.inj ((hslot hd hfulfilled).symm.trans (hslot hd' hfulfilled'))

omit [HostPlatform] in
/-- What two derivations fulfilled with is one registry. -/
theorem OneFulfils.registry_unique (h : OneFulfils s) {d d' : ℕ} {held held' : Derivation}
    {registry registry' : ToolRegistry} (hd : s.derivations[d]? = some held)
    (hd' : s.derivations[d']? = some held') (hthread : held.thread = .done (.ok registry))
    (hthread' : held'.thread = .done (.ok registry')) : d = d' ∧ registry = registry' := by
  obtain rfl := h.unique hd hd' ⟨registry, hthread⟩ ⟨registry', hthread'⟩
  rw [hd] at hd'
  cases hd'
  rw [hthread] at hthread'
  cases hthread'
  exact ⟨rfl, rfl⟩

/-! ## Who serves an operation -/

/-- The stage is one of an operation that this derivation is to answer, or did. -/
def WaitStage.On (d : ℕ) : WaitStage → Prop
  | .racing e | .abandoning e | .obtained e _ | .failed e _ => e = d
  | .gaveUp => True

/-- The derivation that answered the operation. -/
def WaitStage.servedBy : WaitStage → Option ℕ
  | .obtained d _ | .failed d _ => some d
  | .racing _ | .abandoning _ | .gaveUp => none

omit [HostPlatform] in
theorem WaitStage.On.servedBy {stage : WaitStage} {d e : ℕ} (h : stage.On d)
    (hserved : stage.servedBy = some e) : e = d := by
  cases stage with
  | obtained f _ =>
      cases hserved
      exact h
  | failed f _ =>
      cases hserved
      exact h
  | racing _ => cases hserved
  | abandoning _ => cases hserved
  | gaveUp => cases hserved

/-- **An operation stays with the derivation it joined.** -/
theorem registryStep_on {i d : ℕ} (hstep : registryStep sources s label = some s')
    (h : ∃ operation, s.operations[i]? = some operation ∧ operation.stage.On d) :
    ∃ operation, s'.operations[i]? = some operation ∧ operation.stage.On d := by
  obtain ⟨operation, hi, hon⟩ := h
  have hlt := (List.getElem?_eq_some_iff.mp hi).1
  have happended : ∀ other, (s.operations ++ [other])[i]? = some operation := by
    intro other
    rw [List.getElem?_append_left hlt]
    exact hi
  -- one wait changes its stage: it is this operation's, or it is not
  have hset : ∀ (j : ℕ) (before after : RegistryWait), s.operations[j]? = some before →
      (∀ d, before.stage.On d → after.stage.On d) →
      ∃ operation, (s.operations.set j after)[i]? = some operation ∧ operation.stage.On d := by
    intro j before after hj hstage
    by_cases hji : j = i
    · subst hji
      rw [hi] at hj
      cases hj
      exact ⟨after, List.getElem?_set_self hlt, hstage d hon⟩
    · exact ⟨operation, (List.getElem?_set_ne hji).trans hi, hon⟩
  cases registryStep_moves hstep with
  | joined => exact ⟨operation, happended _, hon⟩
  | started => exact ⟨operation, happended _, hon⟩
  | @aborted j before hj =>
      refine hset j before _ hj fun e he => ?_
      show before.stage.aborts.On e
      unfold WaitStage.aborts
      split
      · next hstage =>
          rw [hstage] at he
          exact he
      · exact he
  | @left _ j e held before stage _ hj hwaits he hstage =>
      refine hset j before _ hj fun f hf => ?_
      rcases hstage with rfl | ⟨outcome, -, rfl⟩
      · trivial
      · -- the derivation that answers is the one waited on
        have hef : e = f := by
          cases hbefore : before.stage with
          | racing g =>
              rw [hbefore] at hwaits hf
              exact (beq_iff_eq.mp hwaits).symm.trans hf
          | abandoning g =>
              rw [hbefore] at hwaits hf
              exact (beq_iff_eq.mp hwaits).symm.trans hf
          | obtained => rw [hbefore] at hwaits; cases hwaits
          | failed => rw [hbefore] at hwaits; cases hwaits
          | gaveUp => rw [hbefore] at hwaits; cases hwaits
        cases outcome with
        | ok _ => exact hef
        | error _ => exact hef
  | listed => exact ⟨operation, hi, hon⟩
  | fulfilled => exact ⟨operation, hi, hon⟩
  | rejected => exact ⟨operation, hi, hon⟩

/-- An operation joins the derivation in the slot, or one that is new. -/
theorem registryStep_arrives {context : AccessContext} {aborted : Bool}
    (hstep : registryStep sources s (.arrive context aborted) = some s') :
    ∃ operation d, s'.operations[s.operations.length]? = some operation ∧ operation.stage.On d ∧
      (s.registry = some d ∨ s.registry = none ∧ s.derivations[d]? = none) := by
  have hstage : ∀ d, (if aborted then WaitStage.abandoning d else .racing d).On d := by
    intro d
    cases aborted <;> rfl
  cases registryStep_moves hstep with
  | @joined _ _ d held hslot hd =>
      exact ⟨_, d, List.getElem?_concat_length, hstage d, .inl hslot⟩
  | started hslot =>
      exact ⟨_, s.derivations.length, List.getElem?_concat_length, hstage _,
        .inr ⟨hslot, List.getElem?_eq_none (Nat.le_refl _)⟩⟩
  | left hlabel => rcases hlabel with hlabel | hlabel <;> cases hlabel

end Steps

/-! ## The hash of a listing -/

/-- The names the last listing came to. -/
def lastListed (records : List CatalogueRecord) : Option (List JsString) :=
  records.foldl (fun shown record =>
    match record with
    | .listed tools _ => some tools
    | .invoked _ => shown) none

/-- The listing a record stands under: the last one up to it, itself included. -/
def shownAt (records : List CatalogueRecord) (k : ℕ) : Option (List JsString) :=
  lastListed (records.take (k + 1))

/-- A listing cut from a registry a derivation fulfilled with, or an empty one. -/
def CutFrom (held : RegistryState) (allowed : List ToolDefinition) : Prop :=
  allowed = [] ∨ ∃ (d : ℕ) (derivation : Derivation) (registry : ToolRegistry)
    (visible : ToolDefinition → Bool), held.derivations[d]? = some derivation ∧
      derivation.thread = .done (.ok registry) ∧ allowed = registry.definitions.filter visible

/-- The hash was published of a listing that came to these names. -/
def PublishedAs (held : RegistryState) (tools : List JsString) (hash : JsString) : Prop :=
  ∃ allowed published, allowed.map ToolDefinition.name = tools ∧
    publishToolCatalog allowed = some published ∧ catalogHash published = hash ∧
      CutFrom held allowed

section Hashes

variable {s s' : CatalogueState} {label : CatalogueLabel}

omit [HostPlatform] in
theorem lastListed_snoc (records : List CatalogueRecord) (record : CatalogueRecord) :
    lastListed (records ++ [record]) =
      match record with
      | .listed tools _ => some tools
      | .invoked _ => lastListed records := by
  unfold lastListed
  rw [List.foldl_append]
  rfl

omit [HostPlatform] in
theorem shownAt_append {records : List CatalogueRecord} {k : ℕ} (record : CatalogueRecord)
    (hk : k < records.length) : shownAt (records ++ [record]) k = shownAt records k := by
  unfold shownAt
  rw [List.take_append_of_le_length (by omega)]

omit [HostPlatform] in
theorem shownAt_last (records : List CatalogueRecord) (record : CatalogueRecord) :
    shownAt (records ++ [record]) records.length = lastListed (records ++ [record]) := by
  unfold shownAt
  rw [List.take_of_length_le (by simp)]

theorem PublishedAs.later {held held' : RegistryState} {tools : List JsString} {hash : JsString}
    (h : PublishedAs held tools hash) (hkeeps : KeepsSettled held.derivations held'.derivations) :
    PublishedAs held' tools hash := by
  obtain ⟨allowed, published, hnames, hpublished, hhash, hcut⟩ := h
  refine ⟨allowed, published, hnames, hpublished, hhash, hcut.imp_right ?_⟩
  rintro ⟨d, derivation, registry, visible, hd, hthread, hallowed⟩
  obtain ⟨derivation', hd', hthread'⟩ := hkeeps d derivation _ hd hthread
  exact ⟨d, derivation', registry, visible, hd', hthread', hallowed⟩

/-- **One set of tools, one hash**: the definitions behind the names are those of one registry. -/
theorem OneFulfils.hash_unique {held : RegistryState} (h : OneFulfils held)
    {tools tools' : List JsString} {hash hash' : JsString} (hpublished : PublishedAs held tools hash)
    (hpublished' : PublishedAs held tools' hash') (hsame : ∀ name, name ∈ tools ↔ name ∈ tools') :
    hash = hash' := by
  obtain ⟨allowed, published, rfl, hp, rfl, hcut⟩ := hpublished
  obtain ⟨allowed', published', rfl, hp', rfl, hcut'⟩ := hpublished'
  have hempty : ∀ {as bs : List ToolDefinition},
      (∀ name, name ∈ as.map ToolDefinition.name ↔ name ∈ bs.map ToolDefinition.name) →
        as = [] → bs = [] := by
    rintro as bs hnames rfl
    refine List.eq_nil_iff_forall_not_mem.mpr fun definition hmem => ?_
    exact List.not_mem_nil ((hnames _).mpr (List.mem_map_of_mem hmem))
  have hallowed : allowed = allowed' := by
    rcases hcut with hnil | ⟨d, derivation, registry, visible, hd, hthread, hfilter⟩
    · rw [hnil, hempty hsame hnil]
    · rcases hcut' with hnil | ⟨d', derivation', registry', visible', hd', hthread', hfilter'⟩
      · rw [hnil, hempty (fun name => (hsame name).symm) hnil]
      · obtain ⟨-, rfl⟩ := h.registry_unique hd hd' hthread hthread'
        subst hfilter hfilter'
        exact filter_eq_of_images registry.definitions_nodup hsame
  subst hallowed
  rw [hp] at hp'
  cases hp'
  rfl

/-- **The invariant of the catalogue.** Each record under a listing names that listing's hash. -/
structure CatalogueSound (s : CatalogueState) : Prop where
  one : OneFulfils s.held
  held : ∀ tools, lastListed s.records = some tools →
    ∃ hash, s.catalogHash = some hash ∧ PublishedAs s.held tools hash
  named : ∀ (k : ℕ) record tools, s.records[k]? = some record → shownAt s.records k = some tools →
    ∃ hash, record.hash = some hash ∧ PublishedAs s.held tools hash

/-- A record more, which names the hash of the listing it stands under. -/
theorem CatalogueSound.record (h : CatalogueSound s) {record : CatalogueRecord}
    (hheld : s'.held = s.held) (hrecords : s'.records = s.records ++ [record])
    (hcatalogHash : s'.catalogHash = record.hash)
    (hnew : ∀ tools, lastListed (s.records ++ [record]) = some tools →
      ∃ hash, record.hash = some hash ∧ PublishedAs s.held tools hash) : CatalogueSound s' := by
  refine ⟨hheld ▸ h.one, fun tools htools => ?_, fun k other tools hk htools => ?_⟩
  · rw [hheld, hcatalogHash]
    exact hnew tools (hrecords ▸ htools)
  · rw [hheld]
    rw [hrecords] at hk htools
    rcases getElem?_append_singleton hk with hk | ⟨rfl, rfl⟩
    · rw [shownAt_append record (List.getElem?_eq_some_iff.mp hk).1] at htools
      exact h.named k other tools hk htools
    · rw [shownAt_last] at htools
      exact hnew tools htools

/-- A listing is published. -/
theorem CatalogueSound.holdCatalogHash (h : CatalogueSound s) {tools : List JsString} {hash : JsString}
    (hpublished : PublishedAs s.held tools hash) :
    CatalogueSound (s.holdCatalogHash tools hash) := by
  refine h.record rfl rfl rfl fun shown hshown => ?_
  rw [lastListed_snoc] at hshown
  cases hshown
  exact ⟨hash, rfl, hpublished⟩

theorem catalogueStep_sound (h : CatalogueSound s)
    (hstep : catalogueStep sources s label = some s') : CatalogueSound s' := by
  cases label with
  | registry label =>
      obtain ⟨held, hheld, rfl⟩ := Option.map_eq_some_iff.mp hstep
      have hkeeps := (registryStep_moves hheld).keepsSettled
      refine ⟨registryStep_oneFulfils h.one hheld, fun tools htools => ?_,
        fun k record tools hk htools => ?_⟩
      · obtain ⟨hash, hcurrent, hpublished⟩ := h.held tools htools
        exact ⟨hash, hcurrent, hpublished.later hkeeps⟩
      · obtain ⟨hash, hrecord, hpublished⟩ := h.named k record tools hk htools
        exact ⟨hash, hrecord, hpublished.later hkeeps⟩
  | list i visible =>
      simp only [catalogueStep] at hstep
      split at hstep
      · next signalAborted d registry hop =>
          obtain ⟨published, hpublished, rfl⟩ := Option.map_eq_some_iff.mp hstep
          obtain ⟨held, hd, hthread⟩ := h.one.obtained _ (List.mem_of_getElem? hop) d registry rfl
          exact h.holdCatalogHash ⟨_, published, rfl, hpublished, rfl,
            .inr ⟨d, held, registry, visible, hd, hthread, rfl⟩⟩
      · cases hstep
  | listUnavailable =>
      cases hstep
      exact h.holdCatalogHash ⟨[], [], rfl, rfl, rfl, .inl rfl⟩
  | invoke =>
      cases hstep
      refine h.record rfl rfl rfl fun tools htools => ?_
      rw [lastListed_snoc] at htools
      exact h.held tools htools

theorem catalogueSound_empty : CatalogueSound CatalogueState.empty where
  one := .empty
  held _ h := by cases h
  named _ _ _ h := by cases h

end Hashes

/-! ## One catalogue -/

/-- What holds of the catalogue of a lease. -/
structure OneCatalogue (s : CatalogueState) : Prop where
  obtained : ∀ left ∈ s.held.operations, ∀ right ∈ s.held.operations, ∀ d d' registry registry',
    left.stage = .obtained d registry → right.stage = .obtained d' registry' →
      d = d' ∧ registry = registry'
  fulfilled : ∀ (d d' : ℕ) held held', s.held.derivations[d]? = some held →
    s.held.derivations[d']? = some held' → held.Fulfilled → held'.Fulfilled → d = d'
  /-- Two records that stand under listings of the same tools name the same hash. -/
  hashes : ∀ (k k' : ℕ) record record' tools tools', s.records[k]? = some record →
    s.records[k']? = some record' → shownAt s.records k = some tools →
      shownAt s.records k' = some tools' → (∀ name, name ∈ tools ↔ name ∈ tools') →
        record.hash.isSome ∧ record.hash = record'.hash

/-- The derivation was cancelled when everyone waiting on it had gone, or it has rejected. -/
def Derivation.Lost (held : Derivation) : Prop :=
  held.aborted = true ∨ ∃ error, held.thread = .done (.error error)

/-- No such derivation is in the slot. -/
def SlotFresh (s : CatalogueState) : Prop :=
  ∀ (d : ℕ) (held : Derivation), s.held.registry = some d → s.held.derivations[d]? = some held →
    ¬ held.Lost

/-- No operation arrives while one is there. -/
def ArrivesFresh (s : CatalogueState) : CatalogueLabel → Prop
  | .registry (.arrive _ _) => SlotFresh s
  | _ => True

section Served

variable (sources : CatalogSources) (labels : List CatalogueLabel) (s : CatalogueState)

/-- An operation that arrived in state `before` of the run, and the derivation that answered it. -/
def ServedSince (before : CatalogueState) (d : ℕ) : Prop :=
  ∃ earlier context aborted later operation,
    labels = earlier ++ .registry (.arrive context aborted) :: later ∧
      run (catalogueStep sources) .empty earlier = some before ∧
        s.held.operations[before.held.operations.length]? = some operation ∧
          operation.stage.servedBy = some d

/-- No operation was served by a derivation that was lost before it arrived. -/
def NoneLostServed : Prop :=
  ∀ before d, ServedSince sources labels s before d → ∀ held,
    before.held.derivations[d]? = some held → ¬ held.Lost

/-- No operation that was served arrived while a lost derivation was in the slot. -/
def ServedArriveFresh : Prop :=
  ∀ before d, ServedSince sources labels s before d → SlotFresh before

variable {sources labels s}

theorem catalogueStep_on {s s' : CatalogueState} {label : CatalogueLabel} {i d : ℕ}
    (hstep : catalogueStep sources s label = some s')
    (h : ∃ operation, s.held.operations[i]? = some operation ∧ operation.stage.On d) :
    ∃ operation, s'.held.operations[i]? = some operation ∧ operation.stage.On d := by
  cases label with
  | registry label =>
      obtain ⟨held, hheld, rfl⟩ := Option.map_eq_some_iff.mp hstep
      exact registryStep_on hheld h
  | list i visible =>
      simp only [catalogueStep] at hstep
      split at hstep
      · obtain ⟨published, -, rfl⟩ := Option.map_eq_some_iff.mp hstep
        exact h
      · cases hstep
  | listUnavailable =>
      cases hstep
      exact h
  | invoke =>
      cases hstep
      exact h

/-- Whoever is served is served by the derivation that was in the slot on arrival, or a new one. -/
theorem ServedSince.joined (hrun : run (catalogueStep sources) .empty labels = some s)
    {before : CatalogueState} {d : ℕ} (h : ServedSince sources labels s before d) :
    before.held.registry = some d ∨
      before.held.registry = none ∧ before.held.derivations[d]? = none := by
  obtain ⟨earlier, context, aborted, later, operation, rfl, hbefore, hop, hserved⟩ := h
  obtain ⟨s₁, hearlier, hrest⟩ := run_append.mp hrun
  obtain rfl := Option.some.inj (hearlier.symm.trans hbefore)
  obtain ⟨s₂, harrive, hlater⟩ := run_cons.mp hrest
  obtain ⟨held, hheld, rfl⟩ := Option.map_eq_some_iff.mp harrive
  obtain ⟨joined, e, hi, hon, hjoined⟩ := registryStep_arrives hheld
  obtain ⟨operation', hi', hon'⟩ : ∃ operation,
      s.held.operations[s₁.held.operations.length]? = some operation ∧ operation.stage.On e :=
    run_invariant (fun _ _ _ h hstep => catalogueStep_on hstep h) ⟨joined, hi, hon⟩ hlater
  rw [hop] at hi'
  cases hi'
  rw [hon'.servedBy hserved]
  exact hjoined

end Served

end Machine

/-! ## Runs to evaluate on -/

namespace Sample

/-- Two operations share a derivation, both list, and a call is recorded. -/
def listing : List CatalogueLabel :=
  [.registry (.arrive context false), .registry (.arrive context false),
    .registry (.listed 0 (.handlers [])), .registry (.observe 0), .registry (.deliver 0),
    .registry (.deliver 1), .list 0 fun _ => true, .list 1 fun _ => true, .invoke]

/-- The only operation gives up, another arrives, and the provider stops as it was told to. -/
def lateListing : List CatalogueLabel := arrivingLate.map .registry

end Sample

end SharedOS.Kernel
