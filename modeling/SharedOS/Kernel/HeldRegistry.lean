/-
SharedOS.Kernel.HeldRegistry — one derivation of the catalogue, shared by a turn's operations.

The first operation of a turn to need a catalogue starts a derivation and holds it on the turn's
lease. Every operation then waits for it against its own signal, and the derivation runs under a
signal of its own, which fires once every operation waiting has gone. A rejection is not held: when
it is observed the lease lets go of it.

The machine takes one synchronous piece of one party at a time: an operation arrives, its signal
fires, its abandoned wait is cleaned up, a provider answers, the settled derivation is observed,
and its outcome reaches a waiter. Derivations and operations are named by their place in the order
they came in.
-/
import SharedOS.Kernel.ToolRegistry
import SharedOS.Kernel.TurnLease

namespace SharedOS.Kernel

open SharedOS.Foundation SharedOS.Contracts

/-! ## A derivation as a suspended program -/

/-- What a derivation asks of its surroundings. -/
inductive CatalogOp where
  | aborted
  | listTools (provider : JsString) (context : AccessContext)

/-- The answers to a derivation. -/
abbrev CatalogOp.Answer : CatalogOp → Type
  | .aborted => Bool
  | .listTools .. => ListToolsAnswer

/-- `#deriveToolRegistry` between two awaits. `done` is the settled promise. -/
abbrev DerivationThread := Program CatalogOp CatalogOp.Answer Empty (Except CatalogError ToolRegistry)

/-- The ports of a derivation, each a question of its own. -/
def catalogPorts : CatalogPorts (Program CatalogOp CatalogOp.Answer Empty) where
  aborted := Program.perform CatalogOp.aborted
  listTools provider context := Program.perform (CatalogOp.listTools provider context)

/-- Go on to the next await, reading the signal as it stands. -/
def readSignal (aborted : Bool) : DerivationThread → DerivationThread
  | .ask .aborted next => readSignal aborted (next aborted)
  | thread => thread

/-! ## The machine -/

/-- `HeldRegistry`. -/
structure Derivation where
  thread : DerivationThread
  /-- Whether its own controller has aborted. -/
  aborted : Bool
  waiting : ℤ
  settled : Bool

/-- Where one call of `#resolveToolRegistry` stands. -/
inductive WaitStage where
  /-- `raceAbort` is open. -/
  | racing (derivation : ℕ)
  /-- The caller's signal won the race, and the `finally` block is still to run. -/
  | abandoning (derivation : ℕ)
  | obtained (derivation : ℕ) (registry : ToolRegistry)
  | failed (derivation : ℕ) (error : CatalogError)
  /-- Rejected with the caller's own reason. -/
  | gaveUp

/-- One operation that asked for the lease's registry. -/
structure RegistryWait where
  signalAborted : Bool
  stage : WaitStage

/-- The derivations under way or settled, the one the lease holds, and who waits on which. -/
structure RegistryState where
  derivations : List Derivation
  /-- `lease.registry`. -/
  registry : Option ℕ
  operations : List RegistryWait

/-- A lease nobody has asked for a registry. -/
def RegistryState.empty : RegistryState where
  derivations := []
  registry := none
  operations := []

/-- What can happen next to the registry of a lease. -/
inductive RegistryLabel where
  | arrive (context : AccessContext) (aborted : Bool)
  | abort (operation : ℕ)
  | abandon (operation : ℕ)
  | listed (derivation : ℕ) (answer : ListToolsAnswer)
  | observe (derivation : ℕ)
  | deliver (operation : ℕ)

/-- The `finally` block of a wait: the last to leave an unsettled derivation cancels it. -/
def Derivation.leave (held : Derivation) : Derivation :=
  { held with
    waiting := held.waiting - 1
    aborted := held.aborted || (held.waiting - 1 == 0 && !held.settled) }

/-- What a settled derivation answers a waiter with. -/
def WaitStage.ofOutcome (derivation : ℕ) : Except CatalogError ToolRegistry → WaitStage
  | .ok registry => .obtained derivation registry
  | .error e => .failed derivation e

section Machine

variable [HostPlatform] {sources : CatalogSources}

/-- `#holdRegistry`, up to the derivation's first await. -/
def startDerivation (sources : CatalogSources) (context : AccessContext) : Derivation where
  thread := readSignal false (deriveToolRegistry catalogPorts sources context)
  aborted := false
  waiting := 0
  settled := false

/-- `lease.registry ??= this.#holdRegistry(lease, context)`. -/
def RegistryState.hold (sources : CatalogSources) (s : RegistryState) (context : AccessContext) :
    RegistryState × ℕ :=
  match s.registry with
  | some derivation => (s, derivation)
  | none =>
    ({ s with
        derivations := s.derivations ++ [startDerivation sources context]
        registry := some s.derivations.length }, s.derivations.length)

omit [HostPlatform] in
/-- One more wait on a derivation. A signal that has already fired wins at once. -/
def RegistryState.enter (s : RegistryState) (derivation : ℕ) (held : Derivation)
    (aborted : Bool) : RegistryState :=
  { s with
    derivations := s.derivations.set derivation { held with waiting := held.waiting + 1 }
    operations := s.operations ++
      [{ signalAborted := aborted
         stage := if aborted then .abandoning derivation else .racing derivation }] }

/-- One event, where it can happen. -/
def registryStep (sources : CatalogSources) (s : RegistryState) :
    RegistryLabel → Option RegistryState
  | .arrive context aborted =>
    let (s, derivation) := s.hold sources context
    match s.derivations[derivation]? with
    | none => none
    | some held => some (s.enter derivation held aborted)
  | .abort i =>
    match s.operations[i]? with
    | none => none
    | some operation =>
      -- the signal wins a race that is still open, and no other
      let stage := match operation.stage with
        | .racing derivation => .abandoning derivation
        | stage => stage
      some { s with operations := s.operations.set i { signalAborted := true, stage } }
  | .abandon i =>
    match s.operations[i]? with
    | some { signalAborted, stage := .abandoning derivation } =>
      match s.derivations[derivation]? with
      | none => none
      | some held =>
        some
          { s with
            derivations := s.derivations.set derivation held.leave
            operations := s.operations.set i { signalAborted, stage := .gaveUp } }
    | _ => none
  | .listed derivation answer =>
    match s.derivations[derivation]? with
    | none => none
    | some held =>
      match held.thread with
      | .ask (.listTools _ _) next =>
        some
          { s with
            derivations := s.derivations.set derivation
              { held with thread := readSignal held.aborted (next answer) } }
      | _ => none
  | .observe derivation =>
    match s.derivations[derivation]? with
    | none => none
    | some held =>
      match held.thread, held.settled with
      | .done outcome, false =>
        some
          { s with
            derivations := s.derivations.set derivation { held with settled := true }
            registry :=
              match outcome with
              | .ok _ => s.registry
              -- a rejection is not held, unless the slot has moved on to another derivation
              | .error _ => if s.registry = some derivation then none else s.registry }
      | _, _ => none
  | .deliver i =>
    match s.operations[i]? with
    | some { signalAborted, stage := .racing derivation } =>
      match s.derivations[derivation]? with
      | none => none
      | some held =>
        match held.thread, held.settled with
        -- waiters hear of the outcome after the derivation has marked itself settled
        | .done outcome, true =>
          some
            { s with
              derivations := s.derivations.set derivation held.leave
              operations := s.operations.set i
                { signalAborted, stage := .ofOutcome derivation outcome } }
        | _, _ => none
    | _ => none

/-! ## Who is waiting for what -/

/-- The derivation a wait is still counted on. -/
def WaitStage.waitsOn (derivation : ℕ) : WaitStage → Bool
  | .racing d | .abandoning d => d == derivation
  | _ => false

/-- How many operations wait on a derivation. -/
def RegistryState.waiters (s : RegistryState) (derivation : ℕ) : ℕ :=
  s.operations.countP (·.stage.waitsOn derivation)

omit [HostPlatform] in
/-- One wait changes its stage. -/
theorem countP_set_stage {operations : List RegistryWait} {i : ℕ} {operation : RegistryWait}
    (hat : operations[i]? = some operation) (other : RegistryWait) (p : RegistryWait → Bool) :
    (operations.set i other).countP p + (if p operation then 1 else 0) =
      operations.countP p + if p other then 1 else 0 := by
  obtain ⟨hi, hget⟩ := List.getElem?_eq_some_iff.mp hat
  rw [List.countP_set hi, hget]
  by_cases hp : p operation = true
  · have hpos : 0 < operations.countP p :=
      List.countP_pos_iff.mpr ⟨operation, List.mem_of_getElem? hat, hp⟩
    rw [if_pos hp]
    omega
  · rw [if_neg hp]
    omega

/-! ## A derivation that was not cancelled does not blame the cancellation -/

/-- Read with a signal that has not fired, the derivation never rejects with that signal's
reason. -/
def NeverBlames : DerivationThread → Prop
  | .done outcome => outcome ≠ .error .aborted
  | .throw _ => True
  | .ask .aborted next => NeverBlames (next false)
  | .ask (.listTools _ _) next => ∀ answer, NeverBlames (next answer)

omit [HostPlatform] in
theorem NeverBlames.readSignal {thread : DerivationThread} (h : NeverBlames thread) :
    NeverBlames (readSignal false thread) := by
  induction thread with
  | done outcome => exact h
  | throw e => trivial
  | ask o next ih =>
      cases o with
      | aborted => exact ih false h
      | listTools provider context => exact h

omit [HostPlatform] in
theorem neverBlames_listProviders {context : AccessContext} {providers : List JsString}
    {registry : ToolRegistry} :
    NeverBlames (listProviders catalogPorts context registry providers) := by
  induction providers generalizing registry with
  | nil => exact nofun
  | cons provider rest ih =>
      intro answer
      cases answer with
      | threw => exact nofun
      | notAnArray => exact nofun
      | handlers candidates =>
          dsimp only [Program.bind]
          cases registry.registerAll candidates with
          | error e => exact nofun
          | ok registry => exact ih

theorem neverBlames_derive {context : AccessContext} :
    NeverBlames (deriveToolRegistry catalogPorts sources context) := by
  unfold deriveToolRegistry
  cases sources.tools.registerAll sources.messageTool.toList with
  | error e => exact nofun
  | ok registry => exact neverBlames_listProviders

/-- A derivation stands still only at a provider or at its end. -/
def Suspended (thread : DerivationThread) : Prop :=
  (∃ outcome, thread = .done outcome) ∨
    ∃ provider context next, thread = .ask (.listTools provider context) next

omit [HostPlatform] in
theorem readSignal_suspended (aborted : Bool) (thread : DerivationThread) :
    Suspended (readSignal aborted thread) := by
  induction thread with
  | done outcome => exact .inl ⟨outcome, rfl⟩
  | throw e => cases e
  | ask o next ih =>
      cases o with
      | aborted => exact ih aborted
      | listTools provider context => exact .inr ⟨provider, context, next, rfl⟩

/-! ## The invariant -/

/-- The derivation's promise has fulfilled. -/
def Derivation.Fulfilled (held : Derivation) : Prop :=
  ∃ registry, held.thread = .done (.ok registry)

/-- What holds of a derivation and the number of operations waiting on it. -/
structure Derivation.Sound (held : Derivation) (waiters : ℕ) : Prop where
  counted : held.waiting = waiters
  suspended : Suspended held.thread
  blameless : held.aborted = false → NeverBlames held.thread
  ended : held.settled = true → ∃ outcome, held.thread = .done outcome

/-- What holds of an operation, by the stage it is at. -/
def RegistryWait.Sound (derivations : List Derivation) (operation : RegistryWait) : Prop :=
  match operation.stage with
  | .racing d => operation.signalAborted = false ∧
      ∃ held, derivations[d]? = some held ∧ (held.aborted = false ∨ held.Fulfilled)
  | .abandoning d => operation.signalAborted = true ∧ ∃ held, derivations[d]? = some held
  | .obtained d registry =>
      ∃ held, derivations[d]? = some held ∧ held.thread = .done (.ok registry)
  | .failed d e => ∃ held, derivations[d]? = some held ∧ held.thread = .done (.error e) ∧
      held.settled = true ∧ held.aborted = false
  | .gaveUp => operation.signalAborted = true

/-- **The invariant.** Only an operation whose own signal fired waits on a cancelled derivation,
unless the derivation has fulfilled all the same. -/
structure WaitsSoundly (s : RegistryState) : Prop where
  derivations : ∀ (d : ℕ) (held : Derivation), s.derivations[d]? = some held →
    held.Sound (s.waiters d)
  operations : ∀ operation ∈ s.operations, operation.Sound s.derivations
  slot : ∀ d, s.registry = some d → ∃ held, s.derivations[d]? = some held ∧
    (held.settled = true → held.Fulfilled)

/-- What a step may change in a derivation. -/
structure Derivation.Later (held held' : Derivation) : Prop where
  done : ∀ outcome, held.thread = .done outcome → held'.thread = .done outcome
  settled : held.settled = true → held'.settled = true
  aborted : held.settled = true → held'.aborted = held.aborted

omit [HostPlatform] in
theorem Derivation.Later.fulfilled {held held' : Derivation} (h : held.Later held')
    (hfulfilled : held.Fulfilled) : held'.Fulfilled := by
  obtain ⟨registry, hthread⟩ := hfulfilled
  exact ⟨registry, h.done _ hthread⟩

omit [HostPlatform] in
theorem Derivation.Later.refl (held : Derivation) : held.Later held :=
  ⟨fun _ h => h, fun h => h, fun _ => rfl⟩

omit [HostPlatform] in
/-- **Frame.** An operation a step does not touch stays sound, as long as no wait sees its
derivation cancelled under it. -/
theorem RegistryWait.Sound.later {derivations derivations' : List Derivation}
    {operation : RegistryWait} (h : operation.Sound derivations)
    (hlater : ∀ (d : ℕ) (held : Derivation), derivations[d]? = some held →
      ∃ held', derivations'[d]? = some held' ∧ held.Later held' ∧
        (operation.stage = .racing d → held'.aborted = held.aborted)) :
    operation.Sound derivations' := by
  unfold RegistryWait.Sound at h ⊢
  cases hstage : operation.stage with
  | racing d =>
      rw [hstage] at h
      obtain ⟨hsignal, held, hat, hheld⟩ := h
      obtain ⟨held', hat', hlater, haborted⟩ := hlater d held hat
      refine ⟨hsignal, held', hat', ?_⟩
      rcases hheld with hlive | hfulfilled
      · exact .inl ((haborted hstage).trans hlive)
      · exact .inr (hlater.fulfilled hfulfilled)
  | abandoning d =>
      rw [hstage] at h
      obtain ⟨hsignal, held, hat⟩ := h
      obtain ⟨held', hat', _⟩ := hlater d held hat
      exact ⟨hsignal, held', hat'⟩
  | obtained d registry =>
      rw [hstage] at h
      obtain ⟨held, hat, hthread⟩ := h
      obtain ⟨held', hat', hlater, _⟩ := hlater d held hat
      exact ⟨held', hat', hlater.done _ hthread⟩
  | failed d e =>
      rw [hstage] at h
      obtain ⟨held, hat, hthread, hsettled, haborted⟩ := h
      obtain ⟨held', hat', hlater, _⟩ := hlater d held hat
      exact ⟨held', hat', hlater.done _ hthread, hlater.settled hsettled,
        (hlater.aborted hsettled).trans haborted⟩
  | gaveUp =>
      rw [hstage] at h
      exact h

omit [HostPlatform] in
theorem RegistryWait.Sound.waits {derivations : List Derivation} {operation : RegistryWait} {d : ℕ}
    (h : operation.Sound derivations) (hwaits : operation.stage.waitsOn d = true) :
    ∃ held, derivations[d]? = some held := by
  unfold RegistryWait.Sound at h
  cases hstage : operation.stage with
  | racing d₁ =>
      rw [hstage] at h hwaits
      obtain ⟨_, held, hat, _⟩ := h
      exact ⟨held, beq_iff_eq.mp hwaits ▸ hat⟩
  | abandoning d₁ =>
      rw [hstage] at h hwaits
      obtain ⟨_, held, hat⟩ := h
      exact ⟨held, beq_iff_eq.mp hwaits ▸ hat⟩
  | obtained | failed | gaveUp =>
      rw [hstage] at hwaits
      cases hwaits

section Update

variable {s s' : RegistryState} {d : ℕ} {held held' : Derivation}

omit [HostPlatform]

/-- An operation other than the one a step is about, when one derivation changes. -/
theorem sound_set {operation : RegistryWait} (h : operation.Sound s.derivations)
    (hat : s.derivations[d]? = some held) (hlater : held.Later held')
    (hrace : operation.stage = .racing d → held'.aborted = held.aborted) :
    operation.Sound (s.derivations.set d held') := by
  obtain ⟨hd, _⟩ := List.getElem?_eq_some_iff.mp hat
  apply h.later
  intro d₁ held₁ hat₁
  by_cases hsame : d₁ = d
  · subst hsame
    rw [hat] at hat₁
    cases hat₁
    exact ⟨held', List.getElem?_set_self hd, hlater, hrace⟩
  · exact ⟨held₁, by rw [List.getElem?_set_ne (Ne.symm hsame)]; exact hat₁, .refl held₁, fun _ => rfl⟩

/-- **One derivation changes.** -/
theorem WaitsSoundly.set (h : WaitsSoundly s) (hat : s.derivations[d]? = some held)
    (hderivations : s'.derivations = s.derivations.set d held')
    (hsound : held'.Sound (s'.waiters d)) (hwaiters : ∀ d₁, d₁ ≠ d → s'.waiters d₁ = s.waiters d₁)
    (hoperations : ∀ operation ∈ s'.operations, operation.Sound s'.derivations)
    (hslot : ∀ d₁, s'.registry = some d₁ → s.registry = some d₁ ∧
      (d₁ = d → held'.settled = true → held'.Fulfilled)) : WaitsSoundly s' := by
  obtain ⟨hd, _⟩ := List.getElem?_eq_some_iff.mp hat
  refine ⟨fun d₁ held₁ hat₁ => ?_, hoperations, fun d₁ hslot₁ => ?_⟩
  · rw [hderivations] at hat₁
    by_cases hsame : d₁ = d
    · subst hsame
      rw [List.getElem?_set_self hd] at hat₁
      cases hat₁
      exact hsound
    · rw [List.getElem?_set_ne (Ne.symm hsame)] at hat₁
      rw [hwaiters d₁ hsame]
      exact h.derivations d₁ held₁ hat₁
  · obtain ⟨hold, hfulfilled⟩ := hslot d₁ hslot₁
    obtain ⟨held₁, hat₁, hfulfilled₁⟩ := h.slot d₁ hold
    rw [hderivations]
    by_cases hsame : d₁ = d
    · subst hsame
      exact ⟨held', List.getElem?_set_self hd, hfulfilled rfl⟩
    · exact ⟨held₁, by rw [List.getElem?_set_ne (Ne.symm hsame)]; exact hat₁, hfulfilled₁⟩

end Update

/-- Holding a registry keeps the invariant, and answers with a derivation that is there. -/
theorem WaitsSoundly.hold {s : RegistryState} (h : WaitsSoundly s) (context : AccessContext) :
    WaitsSoundly (s.hold sources context).1 ∧
      ∃ held, (s.hold sources context).1.derivations[(s.hold sources context).2]? = some held ∧
        (s.hold sources context).1.registry = some (s.hold sources context).2 ∧
        (s.registry = none → held.aborted = false) := by
  unfold RegistryState.hold
  cases hslot : s.registry with
  | some d =>
      obtain ⟨held, hat, _⟩ := h.slot d hslot
      exact ⟨h, held, hat, hslot, nofun⟩
  | none =>
      have hnew : (s.derivations ++ [startDerivation sources context])[s.derivations.length]? =
          some (startDerivation sources context) := List.getElem?_concat_length
      have hwaiters : s.waiters s.derivations.length = 0 := by
        apply List.countP_eq_zero.mpr
        intro operation hmem hwaits
        obtain ⟨_, hat⟩ := (h.operations operation hmem).waits hwaits
        rw [List.getElem?_eq_none (le_refl _)] at hat
        cases hat
      refine ⟨⟨fun d held hat => ?_, fun operation hmem => ?_, fun d hd => ?_⟩, _, hnew, rfl,
        fun _ => rfl⟩
      · by_cases hlt : d < s.derivations.length
        · rw [List.getElem?_append_left hlt] at hat
          exact h.derivations d held hat
        · have hlen := (List.getElem?_eq_some_iff.mp hat).1
          rw [List.length_append, List.length_singleton] at hlen
          obtain rfl : d = s.derivations.length := by omega
          rw [hnew] at hat
          cases hat
          refine ⟨?_, readSignal_suspended _ _, fun _ => neverBlames_derive.readSignal, nofun⟩
          show (0 : ℤ) = ((s.waiters s.derivations.length : ℕ) : ℤ)
          rw [hwaiters]
          rfl
      · apply (h.operations operation hmem).later
        intro d held hat
        have hlt := (List.getElem?_eq_some_iff.mp hat).1
        exact ⟨held, by rw [List.getElem?_append_left hlt]; exact hat, .refl held, fun _ => rfl⟩
      · cases hd
        exact ⟨_, hnew, nofun⟩

/-! ## Steps -/

/-- No arrival finds the lease holding a cancelled derivation that has not fulfilled. -/
def CleanArrival (s : RegistryState) : RegistryLabel → Prop
  | .arrive _ _ => ∀ (d : ℕ) (held : Derivation), s.registry = some d →
      s.derivations[d]? = some held → held.aborted = true → held.Fulfilled
  | _ => True

section Steps

variable {s s' : RegistryState}

omit [HostPlatform] in
theorem enter_sound {d : ℕ} {held : Derivation} {aborted : Bool} (h : WaitsSoundly s)
    (hat : s.derivations[d]? = some held) (hlive : held.aborted = false ∨ held.Fulfilled) :
    WaitsSoundly (s.enter d held aborted) := by
  have hlater : held.Later { held with waiting := held.waiting + 1 } :=
    ⟨fun _ h => h, fun h => h, fun _ => rfl⟩
  obtain ⟨hd, _⟩ := List.getElem?_eq_some_iff.mp hat
  have hnew : (WaitStage.waitsOn d (if aborted then .abandoning d else .racing d)) = true := by
    cases aborted <;> exact beq_self_eq_true d
  apply h.set hat rfl
  · have hsound := h.derivations d held hat
    refine ⟨?_, hsound.suspended, hsound.blameless, hsound.ended⟩
    unfold RegistryState.waiters RegistryState.enter
    rw [List.countP_append, List.countP_singleton, if_pos hnew]
    have hcounted : held.waiting = (s.operations.countP (·.stage.waitsOn d) : ℕ) := hsound.counted
    push_cast
    omega
  · intro d₁ hne
    unfold RegistryState.waiters RegistryState.enter
    rw [List.countP_append, List.countP_singleton, if_neg, Nat.add_zero]
    cases aborted <;> exact fun heq => hne (beq_iff_eq.mp heq).symm
  · intro operation hmem
    rcases List.mem_append.mp hmem with hmem | hmem
    · exact sound_set (h.operations operation hmem) hat hlater fun _ => rfl
    · rw [List.mem_singleton.mp hmem]
      have hset : (s.enter d held aborted).derivations[d]? =
          some { held with waiting := held.waiting + 1 } := List.getElem?_set_self hd
      cases aborted with
      | true => exact ⟨rfl, _, hset⟩
      | false => exact ⟨rfl, _, hset, hlive⟩
  · intro d₁ hslot
    refine ⟨hslot, fun hsame => ?_⟩
    subst hsame
    obtain ⟨held₁, hat₁, hfulfilled⟩ := h.slot d₁ hslot
    rw [hat] at hat₁
    cases hat₁
    exact hfulfilled

omit [HostPlatform] in
/-- A wait ends: the operation takes its last stage, and the derivation is left. -/
theorem leave_sound {d i : ℕ} {held : Derivation} {operation other : RegistryWait}
    (h : WaitsSoundly s) (hat : s.derivations[d]? = some held)
    (hop : s.operations[i]? = some operation) (hwaits : operation.stage.waitsOn d = true)
    (hunique : ∀ d₁, d₁ ≠ d → operation.stage.waitsOn d₁ = false)
    (hother : ∀ d₁, other.stage.waitsOn d₁ = false)
    (hsound : other.Sound (s.derivations.set d held.leave)) :
    WaitsSoundly
      { s with
        derivations := s.derivations.set d held.leave
        operations := s.operations.set i other } := by
  have hheld := h.derivations d held hat
  have hcount := countP_set_stage hop other (·.stage.waitsOn d)
  have hcounted : held.waiting = (s.operations.countP (·.stage.waitsOn d) : ℕ) := hheld.counted
  rw [if_pos hwaits, if_neg (by rw [hother d]; exact Bool.false_ne_true)] at hcount
  have hleft : held.waiting - 1 = ((s.operations.set i other).countP (·.stage.waitsOn d) : ℕ) := by
    omega
  have hlater : held.Later held.leave := by
    refine ⟨fun _ h => h, fun h => h, fun hsettled => ?_⟩
    unfold Derivation.leave
    simp [hsettled]
  apply h.set hat rfl
  · refine ⟨hleft, hheld.suspended, fun haborted => hheld.blameless ?_, hheld.ended⟩
    exact (Bool.or_eq_false_iff.mp haborted).1
  · intro d₁ hne
    have hcount₁ := countP_set_stage hop other (·.stage.waitsOn d₁)
    rw [if_neg (by rw [hunique d₁ hne]; exact Bool.false_ne_true),
      if_neg (by rw [hother d₁]; exact Bool.false_ne_true)] at hcount₁
    exact hcount₁
  · intro operation₁ hmem
    rcases List.mem_or_eq_of_mem_set hmem with hold | rfl
    · apply sound_set (h.operations operation₁ hold) hat hlater
      intro hrace
      -- somebody still races on it, so this was not the last to leave
      have hpos : 0 < (s.operations.set i other).countP (·.stage.waitsOn d) :=
        List.countP_pos_iff.mpr ⟨operation₁, hmem, by rw [hrace]; exact beq_self_eq_true d⟩
      have hne : ¬ held.waiting - 1 = 0 := by omega
      unfold Derivation.leave
      simp [hne]
    · exact hsound
  · intro d₁ hslot
    refine ⟨hslot, fun hsame hsettled => ?_⟩
    subst hsame
    obtain ⟨held₁, hat₁, hfulfilled⟩ := h.slot d₁ hslot
    rw [hat] at hat₁
    cases hat₁
    exact hfulfilled hsettled

omit [HostPlatform] in
/-- An operation's own signal fires. -/
theorem abort_sound {i : ℕ} {operation other : RegistryWait} (h : WaitsSoundly s)
    (hop : s.operations[i]? = some operation)
    (hwaits : ∀ d, other.stage.waitsOn d = operation.stage.waitsOn d)
    (hsound : other.Sound s.derivations) :
    WaitsSoundly { s with operations := s.operations.set i other } := by
  refine ⟨fun d held hat => ?_, fun operation₁ hmem => ?_, h.slot⟩
  · have hcount := countP_set_stage hop other (·.stage.waitsOn d)
    rw [hwaits d] at hcount
    have heq : RegistryState.waiters { s with operations := s.operations.set i other } d =
        s.waiters d := Nat.add_right_cancel hcount
    rw [heq]
    exact h.derivations d held hat
  · rcases List.mem_or_eq_of_mem_set hmem with hold | rfl
    · exact h.operations operation₁ hold
    · exact hsound

/-- **Every step that is not a bad arrival keeps the invariant.** -/
theorem registryStep_sound {label : RegistryLabel} (h : WaitsSoundly s)
    (hclean : CleanArrival s label) (hstep : registryStep sources s label = some s') :
    WaitsSoundly s' := by
  cases label with
  | arrive context aborted =>
      obtain ⟨hsound, held, hat, hslot, hfresh⟩ := @WaitsSoundly.hold _ sources s h context
      simp only [registryStep, hat] at hstep
      cases hstep
      apply enter_sound hsound hat
      cases hold : s.registry with
      | none => exact .inl (hfresh hold)
      | some d =>
          have hsame : s.hold sources context = (s, d) := by
            unfold RegistryState.hold
            rw [hold]
          rw [hsame] at hat hslot
          by_cases haborted : held.aborted = true
          · exact .inr (hclean d held hold hat haborted)
          · exact .inl (Bool.eq_false_iff.mpr haborted)
  | abort i =>
      simp only [registryStep] at hstep
      cases hop : s.operations[i]? with
      | none => simp [hop] at hstep
      | some operation =>
          rw [hop] at hstep
          cases hstep
          have hsound := h.operations operation (List.mem_of_getElem? hop)
          unfold RegistryWait.Sound at hsound
          apply abort_sound h hop
          · intro d
            cases operation.stage <;> rfl
          · unfold RegistryWait.Sound
            cases hstage : operation.stage <;> rw [hstage] at hsound
            · obtain ⟨_, held, hat, _⟩ := hsound
              exact ⟨rfl, held, hat⟩
            · exact ⟨rfl, hsound.2⟩
            · exact hsound
            · exact hsound
  | abandon i =>
      simp only [registryStep] at hstep
      split at hstep
      · next signalAborted d hop =>
          split at hstep
          · cases hstep
          · next held hat =>
              cases hstep
              have hsound := h.operations _ (List.mem_of_getElem? hop)
              apply leave_sound h hat hop (beq_self_eq_true d)
              · exact fun d₁ hne => beq_eq_false_iff_ne.mpr (Ne.symm hne)
              · exact fun _ => rfl
              · exact hsound.1
      · cases hstep
  | listed d answer =>
      simp only [registryStep] at hstep
      split at hstep
      · cases hstep
      · next held hat =>
          split at hstep
          · next provider context next hthread =>
              cases hstep
              have hheld := h.derivations d held hat
              have hrunning : held.settled = false := by
                by_contra hsettled
                obtain ⟨outcome, hdone⟩ := hheld.ended (by simpa using hsettled)
                rw [hthread] at hdone
                cases hdone
              have hlater : held.Later
                  { held with thread := readSignal held.aborted (next answer) } := by
                refine ⟨fun outcome hdone => ?_, fun h => h, fun _ => rfl⟩
                rw [hthread] at hdone
                cases hdone
              apply h.set hat rfl
              · refine ⟨hheld.counted, readSignal_suspended _ _, fun haborted => ?_, ?_⟩
                · have hblameless := hheld.blameless haborted
                  rw [hthread] at hblameless
                  show NeverBlames (readSignal held.aborted (next answer))
                  rw [show held.aborted = false from haborted]
                  exact (hblameless answer).readSignal
                · intro hsettled
                  exact absurd hsettled (by simp [hrunning])
              · exact fun _ _ => rfl
              · exact fun operation hmem =>
                  sound_set (h.operations operation hmem) hat hlater fun _ => rfl
              · exact fun d₁ hslot =>
                  ⟨hslot, fun _ hsettled => absurd hsettled (by simp [hrunning])⟩
          · cases hstep
  | observe d =>
      simp only [registryStep] at hstep
      split at hstep
      · cases hstep
      · next held hat =>
          split at hstep
          · next outcome hthread hsettled =>
              cases hstep
              have hheld := h.derivations d held hat
              have hlater : held.Later { held with settled := true } :=
                ⟨fun _ h => h, fun _ => rfl, fun _ => rfl⟩
              apply h.set hat rfl
              · exact ⟨hheld.counted, hheld.suspended, hheld.blameless,
                  fun _ => ⟨outcome, hthread⟩⟩
              · exact fun _ _ => rfl
              · exact fun operation hmem =>
                  sound_set (h.operations operation hmem) hat hlater fun _ => rfl
              · intro d₁ hslot
                cases outcome with
                | ok registry => exact ⟨hslot, fun _ _ => ⟨registry, hthread⟩⟩
                | error e =>
                    -- the lease lets go of a rejection
                    dsimp only at hslot
                    split at hslot
                    · cases hslot
                    · next hne => exact ⟨hslot, fun hsame => absurd (hsame ▸ hslot) hne⟩
          · cases hstep
  | deliver i =>
      simp only [registryStep] at hstep
      split at hstep
      · next signalAborted d hop =>
          split at hstep
          · cases hstep
          · next held hat =>
              split at hstep
              · next outcome hthread hsettled =>
                  cases hstep
                  obtain ⟨hd, _⟩ := List.getElem?_eq_some_iff.mp hat
                  have hset : (s.derivations.set d held.leave)[d]? = some held.leave :=
                    List.getElem?_set_self hd
                  obtain ⟨_, held₁, hat₁, hlive⟩ := h.operations _ (List.mem_of_getElem? hop)
                  rw [hat] at hat₁
                  cases hat₁
                  apply leave_sound h hat hop (beq_self_eq_true d)
                  · exact fun d₁ hne => beq_eq_false_iff_ne.mpr (Ne.symm hne)
                  · intro d₁
                    cases outcome <;> rfl
                  · cases outcome with
                    | ok registry => exact ⟨held.leave, hset, hthread⟩
                    | error e =>
                        refine ⟨held.leave, hset, hthread, hsettled, ?_⟩
                        rcases hlive with hlive | ⟨registry, hdone⟩
                        · unfold Derivation.leave
                          simp [hlive, hsettled]
                        · rw [hthread] at hdone
                          cases hdone
              · cases hstep
      · cases hstep

end Steps

/-! ## Nobody else's cancellation -/

/-- What the parties do without being asked: nothing of it is left to happen. -/
def Quiescent (sources : CatalogSources) (s : RegistryState) : Prop :=
  (∀ d answer, registryStep sources s (.listed d answer) = none) ∧
    (∀ d, registryStep sources s (.observe d) = none) ∧
    ∀ i, registryStep sources s (.deliver i) = none

/-- A derivation failed for a reason of its providers, and its own signal never fired. -/
def ProviderFailure (s : RegistryState) (d : ℕ) (error : CatalogError) : Prop :=
  error ≠ .aborted ∧ ∃ held, s.derivations[d]? = some held ∧
    held.thread = .done (.error error) ∧ held.aborted = false

omit [HostPlatform] in
theorem empty_sound : WaitsSoundly .empty where
  derivations d held hat := by cases hat
  operations operation hmem := absurd hmem List.not_mem_nil
  slot d hd := by cases hd

omit [HostPlatform] in
theorem WaitsSoundly.failure {s : RegistryState} (h : WaitsSoundly s) {operation : RegistryWait}
    (hmem : operation ∈ s.operations) {d : ℕ} {error : CatalogError}
    (hstage : operation.stage = .failed d error) : ProviderFailure s d error := by
  have hsound := h.operations operation hmem
  unfold RegistryWait.Sound at hsound
  rw [hstage] at hsound
  obtain ⟨held, hat, hthread, _, haborted⟩ := hsound
  refine ⟨?_, held, hat, hthread, haborted⟩
  have hblameless := (h.derivations d held hat).blameless haborted
  rw [hthread] at hblameless
  intro heq
  exact hblameless (congrArg Except.error heq)

/-- Nothing keeps a waiting operation but a provider or a step that is there to be taken. -/
theorem WaitsSoundly.not_racing {s : RegistryState} (h : WaitsSoundly s)
    (hquiescent : Quiescent sources s) {i : ℕ} {operation : RegistryWait} {d : ℕ}
    (hop : s.operations[i]? = some operation) : operation.stage ≠ .racing d := by
  intro hstage
  obtain ⟨hlisted, hobserve, hdeliver⟩ := hquiescent
  obtain ⟨held, hat⟩ := (h.operations operation (List.mem_of_getElem? hop)).waits
    (show operation.stage.waitsOn d = true by rw [hstage]; exact beq_self_eq_true d)
  rcases (h.derivations d held hat).suspended with ⟨outcome, hthread⟩ | ⟨p, c, next, hthread⟩
  · cases hsettled : held.settled with
    | false =>
        have hnone := hobserve d
        simp [registryStep, hat, hthread, hsettled] at hnone
    | true =>
        have hnone := hdeliver i
        obtain ⟨signalAborted, stage⟩ := operation
        cases hstage
        simp [registryStep, hop, hat, hthread, hsettled] at hnone
  · have hnone := hlisted d .threw
    simp [registryStep, hat, hthread] at hnone

/-- **One operation's cancellation fails no other**, in every run in which no operation arrives at
a derivation that is cancelled and has not fulfilled. -/
theorem cancellation_fails_no_other {labels : List RegistryLabel} {s : RegistryState}
    (hrun : run (registryStep sources) .empty labels = some s)
    (hclean : StepsMeet (registryStep sources) CleanArrival .empty labels) :
    ∀ (i : ℕ) (operation : RegistryWait), s.operations[i]? = some operation →
      operation.signalAborted = false →
        (operation.stage ≠ .gaveUp ∧ ∀ d error, operation.stage = .failed d error →
          ProviderFailure s d error) ∧
        (Quiescent sources s →
          (∃ d registry held, operation.stage = .obtained d registry ∧
            s.derivations[d]? = some held ∧ held.thread = .done (.ok registry)) ∨
          ∃ d error, operation.stage = .failed d error ∧ ProviderFailure s d error) := by
  have h : WaitsSoundly s := run_invariant_where
    (fun _ _ _ hs hmeets hstep => registryStep_sound hs hmeets hstep) empty_sound hclean hrun
  intro i operation hop hsignal
  have hmem := List.mem_of_getElem? hop
  have hsound := h.operations operation hmem
  unfold RegistryWait.Sound at hsound
  refine ⟨⟨fun hstage => ?_, fun d error hstage => h.failure hmem hstage⟩, fun hquiescent => ?_⟩
  · rw [hstage, hsignal] at hsound
    cases hsound
  · cases hstage : operation.stage with
    | racing d => exact absurd hstage (h.not_racing hquiescent hop)
    | abandoning d =>
        rw [hstage, hsignal] at hsound
        cases hsound.1
    | obtained d registry =>
        rw [hstage] at hsound
        obtain ⟨held, hat, hthread⟩ := hsound
        exact .inl ⟨d, registry, held, rfl, hat, hthread⟩
    | failed d error => exact .inr ⟨d, error, rfl, h.failure hmem hstage⟩
    | gaveUp =>
        rw [hstage, hsignal] at hsound
        cases hsound

end Machine

/-! ## A run to evaluate on -/

namespace Sample

/-- One provider, and nothing registered beside it. -/
def sources : CatalogSources where
  tools := .empty
  messageTool := none
  toolProviders := ["mcp"]

/-- Two operations share a derivation, and one of them gives up. -/
def sharing : List RegistryLabel :=
  [.arrive context false, .arrive context false, .abort 0, .abandon 0, .listed 0 (.handlers []),
    .observe 0, .deliver 1]

/-- The only operation gives up, another arrives, and the provider stops as it was told to. -/
def arrivingLate : List RegistryLabel :=
  [.arrive context false, .abort 0, .abandon 0, .arrive context false, .listed 0 .threw,
    .observe 0, .deliver 1]

end Sample

open scoped SharedOS.Foundation.Reference in
theorem cancellation_fails_no_other_sharing :
    ∃ s, run (registryStep Sample.sources) .empty Sample.sharing = some s ∧
      ∀ (i : ℕ) (operation : RegistryWait), s.operations[i]? = some operation →
        operation.signalAborted = false →
          (operation.stage ≠ .gaveUp ∧ ∀ d error, operation.stage = .failed d error →
            ProviderFailure s d error) ∧
          (Quiescent Sample.sources s →
            (∃ d registry held, operation.stage = .obtained d registry ∧
              s.derivations[d]? = some held ∧ held.thread = .done (.ok registry)) ∨
            ∃ d error, operation.stage = .failed d error ∧ ProviderFailure s d error) := by
  have hrun : (run (registryStep Sample.sources) .empty Sample.sharing).isSome := rfl
  obtain ⟨s, hs⟩ := Option.isSome_iff_exists.mp hrun
  refine ⟨s, hs, cancellation_fails_no_other hs ?_⟩
  refine ⟨nofun, fun s₁ h₁ => ⟨?_, ?_⟩⟩
  · cases h₁
    intro d held hslot hat haborted
    cases hslot
    cases hat
    cases haborted
  · exact fun _ _ => ⟨trivial, fun _ _ => ⟨trivial, fun _ _ => ⟨trivial, fun _ _ =>
      ⟨trivial, fun _ _ => ⟨trivial, fun _ _ => trivial⟩⟩⟩⟩⟩

open scoped SharedOS.Foundation.Reference in
/-- An operation that arrives after every earlier one has given up is failed with their abort. Its
own signal never fired, and no provider failed by itself. -/
theorem late_arrival_fails :
    ∃ s, run (registryStep Sample.sources) .empty Sample.arrivingLate = some s ∧
      ∃ operation, s.operations[1]? = some operation ∧ operation.signalAborted = false ∧
        operation.stage = .failed 0 .aborted ∧ ¬ ∃ error, ProviderFailure s 0 error := by
  refine ⟨_, rfl, _, rfl, rfl, rfl, ?_⟩
  rintro ⟨error, _, held, hat, _, haborted⟩
  cases hat
  cases haborted

end SharedOS.Kernel
