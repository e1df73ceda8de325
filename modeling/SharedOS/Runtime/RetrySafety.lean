/-
SharedOS.Runtime.RetrySafety — what `retryable` tells of a turn's own calls.

A result with `error.retryable = true` tells a host that running the turn again repeats nothing.
The envelope answers from two facts it keeps by counting: how many calls of unrepeatable tools are
with the kernel, and whether one that came back may have had an effect. The invariant says what the
two facts mean of the calls themselves (`Sound`).

It rests on three things. A kernel operation's ending tells of its handler (`Told`): a refusal that
did not come from inside the handler means that none was entered. The lease makes the envelope's
classification the handler's own, so that a call counted as repeatable enters a handler that is. And
one thing no code enforces: that a handler which was entered does not answer `denied`
(`DeniesBeforeEffect`). Every step that meets the last keeps the invariant (`executorStep_sound`),
and where the invariant holds a retryable result means that no mediated call entered a handler whose
work a second run repeats (`Sound.retrySafe`).

Only the handlers of the turn's own calls are in sight here. A handler that calls the kernel back is
the subject of the module on callbacks, which takes this invariant as the half of its own.
-/
import SharedOS.Foundation.Run
import SharedOS.Kernel.AuditMediation
import SharedOS.Runtime.Executor

namespace SharedOS.Runtime

open SharedOS.Foundation SharedOS.Contracts SharedOS.Core SharedOS.Kernel

/-! ## The promise -/

/-- The handler was entered on the call's behalf: it has answered, or it is being asked. -/
def MediatedCall.Entered (c : MediatedCall) (handler : ToolHandler) : Prop :=
  handler ∈ entries c.trace ∨
    ∃ context parsedCall next, c.stage = .withKernel (.ask (.invokeHandler handler context parsedCall) next)

/-- A turn that says it can be run again has entered, by its own calls, no handler whose work a
second run repeats. -/
def RetrySafe (s : TurnState) : Prop :=
  ∀ result, s.result = some result → result.ending.retryable = true →
    ∀ c ∈ s.ledger.calls, ∀ handler, c.Entered handler →
      isSafeToRepeat handler.definition = true

/-! ## The turn body -/

section Body

variable {turn : Turn} {s s' : TurnState}

/-- A step that keeps the ledger: it moves the turn on, or ends it with a result that is retryable
only where a retry was safe. -/
structure BodyStep (turn : Turn) (s s' : TurnState) : Prop where
  ledger : s'.ledger = s.ledger
  served : (∀ d ∈ s.effectiveTools, ∃ handler ∈ turn.catalogue.tools, handler.definition = d) →
    ∀ d ∈ s'.effectiveTools, ∃ handler ∈ turn.catalogue.tools, handler.definition = d
  stopped : s.deadlines.aborted.isSome → s'.deadlines.aborted.isSome
  moved : (s'.phase ≠ .closed ∧ (s'.phase = .fresh → s.phase = .fresh) ∧ s'.result = s.result) ∨
    (s'.phase = .closed ∧ s'.deadlines.aborted.isSome ∧ ∃ result, s'.result = some result ∧
      (result.ending.retryable = true → s.phase = .fresh ∨ s.safeToRetry = true))

/-- Only the events and the outage noted have changed. -/
structure Kept (s s' : TurnState) : Prop where
  phase : s'.phase = s.phase
  deadlines : s'.deadlines = s.deadlines
  effectiveTools : s'.effectiveTools = s.effectiveTools
  ledger : s'.ledger = s.ledger
  result : s'.result = s.result

theorem Kept.refl (s : TurnState) : Kept s s := ⟨rfl, rfl, rfl, rfl, rfl⟩

theorem Kept.emit (h : Kept s s') (data : ExecutionEventData) : Kept s (s'.emit data) := { h with }

theorem Kept.watchAudit (h : Kept s s') (thrown : Thrown) : Kept s (s'.watchAudit thrown) := by
  cases thrown with
  | auditUnavailable effect => exact { h with }
  | other => exact h

theorem Kept.safeToRetry (h : Kept s s') : s'.safeToRetry = s.safeToRetry := by
  unfold TurnState.safeToRetry
  rw [h.ledger]

/-- The turn body goes on to its next await. -/
theorem Kept.moves (h : Kept s s') {phase : TurnPhase} (hopen : phase ≠ .closed)
    (hfresh : phase ≠ .fresh) : BodyStep turn s { s' with phase } where
  ledger := h.ledger
  served hserved := by
    show ∀ d ∈ s'.effectiveTools, _
    rw [h.effectiveTools]
    exact hserved
  stopped hstopped := by
    show s'.deadlines.aborted.isSome
    rw [h.deadlines]
    exact hstopped
  moved := .inl ⟨hopen, fun hf => absurd hf hfresh, h.result⟩

theorem Kept.ends (h : Kept s s') {ending : TurnEnding}
    (hsafe : ending.retryable = true → s.phase = .fresh ∨ s.safeToRetry = true) :
    BodyStep turn s (s'.endTurn turn ending) where
  ledger := h.ledger
  served hserved := by
    show ∀ d ∈ s'.effectiveTools, _
    rw [h.effectiveTools]
    exact hserved
  stopped _ := s'.deadlines.close_isSome
  moved := .inr ⟨rfl, s'.deadlines.close_isSome, _, rfl, hsafe⟩

/-- An ending under the envelope's own code: its flag is the last argument. -/
theorem retryable_protocolError {code message : JsString} {retryable : Bool}
    {status : ProtocolError → TurnEnding}
    (hstatus : ∀ e, (status e).error = some e) :
    (status (protocolError code message retryable)).retryable = retryable := by
  unfold TurnEnding.retryable
  rw [hstatus]
  cases retryable <;> rfl

theorem Kept.endsCaught (h : Kept s s') : BodyStep turn s (s'.endCaught turn) := by
  unfold TurnState.endCaught
  split
  · apply (h.emit _).ends
    rw [retryable_protocolError fun _ => rfl, h.safeToRetry]
    exact Or.inr
  split
  · apply (h.emit _).ends
    unfold TurnState.turnCancelled
    rw [retryable_protocolError fun _ => rfl, h.safeToRetry]
    exact Or.inr
  · apply (h.emit _).ends
    rw [retryable_protocolError fun _ => rfl, h.safeToRetry]
    exact Or.inr

theorem Kept.caught (h : Kept s s') : BodyStep turn s (s'.caught turn) := by
  unfold TurnState.caught
  split
  · exact h.moves nofun nofun
  · exact h.endsCaught

theorem Kept.denied (h : Kept s s') {code message : JsString} :
    BodyStep turn s (s'.denyTurn turn (protocolError code message false)) := by
  apply (h.emit _).ends
  rw [retryable_protocolError fun _ => rfl]
  exact nofun

theorem Kept.failed (h : Kept s s') {code message : JsString} :
    BodyStep turn s (s'.failTurn turn code message) := by
  apply (h.emit _).ends
  rw [retryable_protocolError fun _ => rfl]
  exact nofun

theorem validateTurnContext_retryable [HostPlatform] {request : ExecutionRequest} {error : ProtocolError}
    (h : validateTurnContext request = some error) :
    ∃ code message, error = protocolError code message false := by
  unfold validateTurnContext at h
  split at h
  · exact ⟨_, _, (Option.some.inj h).symm⟩
  split at h
  · exact ⟨_, _, (Option.some.inj h).symm⟩
  split at h
  · exact ⟨_, _, (Option.some.inj h).symm⟩
  · cases h

theorem body_start [HostPlatform] (hfresh : s.phase = .fresh) (parent : Option Thrown) :
    BodyStep turn s (s.start turn parent) := by
  unfold TurnState.start
  split
  · next error herror =>
      obtain ⟨code, message, rfl⟩ := validateTurnContext_retryable herror
      exact (Kept.refl s).denied
  · cases parent with
    | none => exact (Kept.refl s).moves nofun nofun
    | some reason =>
        exact
          { ledger := rfl
            served := id
            stopped := fun _ => TurnDeadlines.close_isSome _
            moved := .inr ⟨rfl, TurnDeadlines.close_isSome _, _, rfl, fun _ => .inl hfresh⟩ }

theorem body_opened (answer : Except (Option Thrown) Unit) :
    BodyStep turn s (s.opened turn answer) := by
  cases answer with
  | ok => exact (Kept.refl s).moves nofun nofun
  | error refusal =>
      cases refusal with
      | none => exact (Kept.refl s).denied
      | some e => exact ((Kept.refl s).watchAudit e).caught

theorem body_admitted (answer : Except Thrown (Option JsString)) :
    BodyStep turn s (s.admitted turn answer) := by
  cases answer with
  | ok refusal =>
      cases refusal with
      | none => exact (Kept.refl s).moves nofun nofun
      | some reasonCode => exact (Kept.refl s).denied
  | error e => exact ((Kept.refl s).watchAudit e).caught

theorem body_reached (answer : Except Thrown Unit) : BodyStep turn s (s.reached turn answer) := by
  cases answer with
  | ok => exact (Kept.refl s).moves nofun nofun
  | error e => exact ((Kept.refl s).watchAudit e).caught

/-- What the turn is served comes from the catalogue of its lease. -/
theorem body_listed [HostPlatform] (answer : Except Thrown (JsString → Bool)) :
    BodyStep turn s (s.listed turn answer) := by
  cases answer with
  | error e => exact ((Kept.refl s).watchAudit e).caught
  | ok visible =>
      exact
        { ledger := rfl
          served := fun _ d hd => by
            have hlisted := List.mem_of_mem_filter (List.mem_of_mem_filter hd)
            exact List.mem_map.mp (mem_definitions.mp hlisted)
          stopped := id
          moved := .inl ⟨nofun, nofun, rfl⟩ }

theorem body_returned (answer : Except Thrown (Option RuntimeTurnOutcome)) :
    BodyStep turn s (s.returned turn answer) := by
  cases answer with
  | error e => exact (Kept.refl s).caught
  | ok candidate =>
      unfold TurnState.returned
      dsimp only
      split
      · exact (Kept.refl s).caught
      · unfold TurnState.concluded
        split
        · exact (Kept.refl s).failed
        · exact ((Kept.refl s).emit _).ends nofun
        · split
          · exact (Kept.refl s).failed
          · exact (Kept.refl s).moves nofun nofun
        · next error _ =>
            -- a plugin's `true` is kept only where a retry is safe
            apply ((Kept.refl s).emit _).ends
            intro hretry
            right
            by_contra hunsafe
            have hfalse : s.safeToRetry = false := Bool.eq_false_iff.mpr hunsafe
            unfold TurnEnding.retryable TurnEnding.error at hretry
            by_cases hasked : error.retryable = some true
            · simp [hasked, hfalse] at hretry
            · simp [hasked] at hretry

theorem body_escalated (answer : Except Thrown Escalation) :
    BodyStep turn s (s.escalated turn answer) := by
  cases answer with
  | ok escalation => exact ((Kept.refl s).emit _).ends nofun
  | error e => exact ((Kept.refl s).watchAudit e).caught

end Body

section Invariant

variable [HostPlatform]

/-! ## The invariant -/

/-- The answer being given, while the turn is open, is not the `denied` result of a handler whose
work a second run repeats. -/
def DeniesBeforeEffect (s : TurnState) : TurnLabel → Prop
  | .call i (.kernelAnswers surroundings) =>
    s.phase ≠ .closed → ∀ c handler context parsedCall next candidate result, s.ledger.calls[i]? = some c →
      c.stage = .withKernel (.ask (.invokeHandler handler context parsedCall) next) →
      isSafeToRepeat handler.definition = false →
      surroundings (.invokeHandler handler context parsedCall) = .returned (some candidate) →
      acceptToolResult c.call candidate = some result → result.status ≠ .denied
  | _ => True

/-- Every registry a lease answered with is the catalogue. -/
def Leased (catalogue : ToolRegistry) (t : KernelTrace) : Prop :=
  ∀ key answer, ⟨.leasedRegistry key, answer⟩ ∈ t →
    answer = some (.ok catalogue) ∨ ∃ e, answer = some (.error e)

/-- How a kernel operation ended, as the envelope sees it. -/
def SettledAs (s : TurnState) (r : Except KernelError ToolResult) :
    Except Thrown ToolResult → Prop
  | .ok result => r = .ok result
  | .error thrown => ∃ e, r = .error e ∧
      (thrown = .auditUnavailable .none → e = .auditUnavailable .none ∨ s.deadlines.aborted.isSome)

/-- The stage is where the trace leads. -/
def Follows (turn : Turn) (s : TurnState) (c : MediatedCall) : Prop :=
  let operation := invokeTool turn.executor.kernel c.context c.call
  match c.stage with
  | .refused _ => c.trace = [] ∧ c.repeatable = true
  | .withKernel rest => Program.Reaches operation c.trace rest
  | .watched settled _ => ∃ r, Program.Finishes operation c.trace r ∧ SettledAs s r settled
  | .accounted settled => ∃ r, Program.Finishes operation c.trace r ∧ SettledAs s r settled

/-- No handler whose work a second run repeats has answered `denied`. -/
def Honest (c : MediatedCall) : Prop :=
  ∀ handler context parsedCall candidate result,
    ⟨.invokeHandler handler context parsedCall, PortAnswer.returned (some candidate)⟩ ∈ c.trace →
    isSafeToRepeat handler.definition = false → acceptToolResult c.call candidate = some result →
    result.status ≠ .denied

/-- The call was counted by its tool's own definition. -/
def Classified (catalogue : ToolRegistry) (c : MediatedCall) : Prop :=
  (∃ result, c.stage = .refused result) ∨
    ∃ handler ∈ catalogue.tools, handler.definition.name = c.call.tool ∧
      c.repeatable = isSafeToRepeat handler.definition

/-- **What holds of each call along a turn.** -/
structure CallSound (turn : Turn) (s : TurnState) (c : MediatedCall) : Prop where
  follows : Follows turn s c
  leased : s.phase ≠ .closed → Leased turn.catalogue c.trace
  /-- Whatever came before the signal was read as unfired came while the lease was held. -/
  checked : ∀ t u, c.trace = t ++ ⟨.signalAborted, false⟩ :: u → Leased turn.catalogue t
  honest : s.phase ≠ .closed → Honest c
  classified : Classified turn.catalogue c

/-- With the kernel, and not safe to repeat. -/
def outstanding (c : MediatedCall) : Bool :=
  !c.repeatable && match c.stage with
    | .withKernel _ | .watched _ _ => true
    | .refused _ | .accounted _ => false

/-- **The invariant of a turn.** -/
structure Sound (turn : Turn) (s : TurnState) : Prop where
  fresh : s.phase = .fresh → s.ledger.calls = []
  served : ∀ d ∈ s.effectiveTools, ∃ handler ∈ turn.catalogue.tools, handler.definition = d
  calls : ∀ c ∈ s.ledger.calls, CallSound turn s c
  stopped : s.phase = .closed → s.deadlines.aborted.isSome
  counted : s.ledger.writesWithKernel = s.ledger.calls.countP outstanding
  harmless : s.phase ≠ .closed → s.ledger.effectPossible = false → ∀ c ∈ s.ledger.calls, c.repeatable = false →
    ∀ settled, c.stage = .accounted settled → entries c.trace = []
  ended : ∀ result, s.result = some result → s.phase = .closed ∧
    (result.ending.retryable = true → ∀ c ∈ s.ledger.calls, c.repeatable = false →
      (∃ settled, c.stage = .accounted settled) ∧ entries c.trace = [])

/-! ## What follows for one call -/

section Call

variable {turn : Turn} {s s' : TurnState} {c : MediatedCall} {handler : ToolHandler}
  {context : AccessContext} {parsedCall : ToolCall} {t u : KernelTrace}

theorem resolveToolRegistry_leased {kernel : SharedOSKernel} {catalogue tools : ToolRegistry}
    (hleased : Leased catalogue t)
    (h : Program.Finishes (resolveToolRegistry kernel context) t (.ok (.ok tools))) :
    tools = catalogue := by
  unfold resolveToolRegistry ask at h
  rw [Program.perform_bind, Program.finishes_ask] at h
  obtain ⟨answer, rest, rfl, hrest⟩ := h
  have hanswer := hleased _ _ List.mem_cons_self
  rcases hanswer with rfl | ⟨e, rfl⟩
  · have heq := (Program.finishes_done.mp hrest).2
    exact Except.ok.inj (Except.ok.inj heq)
  · have heq := (Program.finishes_done.mp hrest).2
    cases Except.ok.inj heq

theorem Follows.reaches (h : Follows turn s c) (hne : c.trace ≠ []) :
    ∃ q, Program.Reaches (invokeTool turn.executor.kernel c.context c.call) c.trace q := by
  unfold Follows at h
  split at h
  · exact absurd h.1 hne
  · exact ⟨_, h⟩
  · obtain ⟨r, hrun, _⟩ := h
    exact ⟨_, hrun⟩
  · obtain ⟨r, hrun, _⟩ := h
    exact ⟨_, hrun⟩

/-- **The envelope's classification is the handler's own.** A handler entered for the call came from
the catalogue, under the name the call was counted by. -/
theorem CallSound.repeatable_eq (h : CallSound turn s c) (htrace : c.trace = t ++ u)
    (hasks : Program.Asks (invokeTool turn.executor.kernel c.context c.call) t
      (.invokeHandler handler context parsedCall)) :
    c.repeatable = isSafeToRepeat handler.definition := by
  obtain ⟨-, hauthorized⟩ := authorized_of_asks hasks
  obtain ⟨before, rfl⟩ := List.getLast?_eq_some_iff.mp hauthorized.unaborted
  obtain ⟨authority, requirement, hoffered, -⟩ := hauthorized.decided
  obtain ⟨t₁, t₂, t₃, tools, hsplit, hrun, hget⟩ := hoffered.catalogued
  -- the signal was read last, so all that was asked of the lease came before
  have hleased : Leased turn.catalogue before := h.checked before u (by simp [htrace])
  have hmiddle : Leased turn.catalogue t₂ := by
    intro key answer hmem
    apply hleased key answer
    have hwhole : (⟨.leasedRegistry key, answer⟩ : KernelEvent) ∈
        before ++ [⟨.signalAborted, false⟩] := by
      rw [hsplit]
      simp [hmem]
    rcases List.mem_append.mp hwhole with hbefore | hlast
    · exact hbefore
    · cases List.mem_singleton.mp hlast
  have htools := resolveToolRegistry_leased hmiddle hrun
  obtain ⟨hmem, hname⟩ := ToolRegistry.get_mem hget
  rw [htools] at hmem
  rcases h.classified with ⟨result, hrefused⟩ | ⟨handler', hmem', hname', hclass⟩
  · have hfollows := h.follows
    unfold Follows at hfollows
    rw [hrefused] at hfollows
    simp [htrace] at hfollows
  · have hsame := turn.catalogue.eq_of_name hmem' hmem (hname'.trans hname.symm)
    rw [hclass, hsame]

/-- A handler that answered was asked, at that point of the trace. -/
theorem CallSound.asked (h : CallSound turn s c) {answer : PortAnswer ToolResult}
    (hmem : ⟨.invokeHandler handler context parsedCall, answer⟩ ∈ c.trace) :
    ∃ t u, c.trace = t ++ u ∧
      Program.Asks (invokeTool turn.executor.kernel c.context c.call) t
        (.invokeHandler handler context parsedCall) := by
  obtain ⟨q, hreaches⟩ := h.follows.reaches (List.ne_nil_of_mem hmem)
  obtain ⟨t, u, htrace⟩ := List.append_of_mem hmem
  rw [htrace] at hreaches
  exact ⟨t, _, htrace, hreaches.asks_prefix⟩

theorem CallSound.entered (h : CallSound turn s c) (hentered : c.Entered handler) :
    ∃ t u context parsedCall, c.trace = t ++ u ∧
      Program.Asks (invokeTool turn.executor.kernel c.context c.call) t
        (.invokeHandler handler context parsedCall) := by
  rcases hentered with hentry | ⟨context, parsedCall, next, hstage⟩
  · obtain ⟨context, parsedCall, answer, hmem⟩ := mem_entries.mp hentry
    obtain ⟨t, u, htrace, hasks⟩ := h.asked hmem
    exact ⟨t, u, context, parsedCall, htrace, hasks⟩
  · have hfollows := h.follows
    unfold Follows at hfollows
    rw [hstage] at hfollows
    exact ⟨c.trace, [], context, parsedCall, (List.append_nil _).symm, next, hfollows⟩

theorem toolResultSchema_status {result parsed : ToolResult}
    (h : toolResultSchema result = some parsed) : parsed.status = result.status := by
  unfold toolResultSchema at h
  simp only [Option.bind_eq_bind, Option.bind_eq_some_iff] at h
  obtain ⟨callId, _, tool, _, completedAt, _, outcome, houtcome, metadata, _, heq⟩ := h
  cases heq
  exact toolOutcomeSchema_status houtcome

/-- **A refusal had no effect**, where the handler is not the one that refused. -/
theorem CallSound.unentered_of_refused (h : CallSound turn s c) (hhonest : Honest c)
    (hwrites : c.repeatable = false) {result : ToolResult}
    (hrun : Program.Finishes (invokeTool turn.executor.kernel c.context c.call) c.trace
      (.ok result)) (hrefused : isRefusedBeforeEffect result = true) : entries c.trace = [] := by
  by_contra hentered
  obtain ⟨parsed, hparsed, hdenied⟩ := (Option.any_eq_true _ _).mp hrefused
  have hstatus : result.status = .denied := by
    rw [← toolResultSchema_status hparsed]
    exact of_decide_eq_true hdenied
  have htold := (accounted_of_finishes hrun).told
  obtain ⟨handler, context, parsedCall, candidate, hmem, haccept⟩ :=
    htold.denied result rfl hstatus hentered
  obtain ⟨t, u, htrace, hasks⟩ := h.asked hmem
  have hclass := h.repeatable_eq htrace hasks
  exact hhonest handler context parsedCall candidate result hmem (hclass ▸ hwrites) haccept hstatus

end Call

/-! ## Steps that leave the calls alone -/

section Frame

variable {turn : Turn} {s s' : TurnState}

omit [HostPlatform] in
theorem SettledAs.later {r : Except KernelError ToolResult} {settled : Except Thrown ToolResult}
    (haborted : s.deadlines.aborted.isSome → s'.deadlines.aborted.isSome)
    (h : SettledAs s r settled) : SettledAs s' r settled := by
  cases settled with
  | ok result => exact h
  | error thrown =>
      obtain ⟨e, heq, houtage⟩ := h
      exact ⟨e, heq, fun hthrown => (houtage hthrown).imp_right haborted⟩

/-- A call stays sound while the turn stays stopped and closed where it was. -/
theorem CallSound.later {c : MediatedCall} (h : CallSound turn s c)
    (haborted : s.deadlines.aborted.isSome → s'.deadlines.aborted.isSome)
    (hclosed : s.phase = .closed → s'.phase = .closed) : CallSound turn s' c where
  follows := by
    have hfollows := h.follows
    unfold Follows at hfollows ⊢
    split at hfollows
    · exact hfollows
    · exact hfollows
    · obtain ⟨r, hrun, hsettled⟩ := hfollows
      exact ⟨r, hrun, hsettled.later haborted⟩
    · obtain ⟨r, hrun, hsettled⟩ := hfollows
      exact ⟨r, hrun, hsettled.later haborted⟩
  leased hopen := h.leased fun hphase => hopen (hclosed hphase)
  checked := h.checked
  honest hopen := h.honest fun hphase => hopen (hclosed hphase)
  classified := h.classified

/-- **What `safeToRetry` means.** Every call a second run would repeat has been accounted for, and
entered no handler. -/
theorem Sound.safe (h : Sound turn s) (hopen : s.phase ≠ .closed) (hsafe : s.safeToRetry = true) :
    ∀ c ∈ s.ledger.calls, c.repeatable = false →
      (∃ settled, c.stage = .accounted settled) ∧ entries c.trace = [] := by
  unfold TurnState.safeToRetry at hsafe
  simp only [Bool.and_eq_true, Bool.not_eq_true', decide_eq_true_eq] at hsafe
  obtain ⟨heffect, hwrites⟩ := hsafe
  intro c hc hwrite
  have hnone : outstanding c = false := by
    have hzero := h.counted ▸ hwrites
    exact Bool.eq_false_iff.mpr (List.countP_eq_zero.mp hzero c hc)
  have haccounted : ∃ settled, c.stage = .accounted settled := by
    have hfollows := (h.calls c hc).follows
    unfold Follows at hfollows
    unfold outstanding at hnone
    cases hstage : c.stage with
    | refused result => simp [hstage, hwrite] at hfollows
    | withKernel rest => simp [hstage, hwrite] at hnone
    | watched settled isOutage => simp [hstage, hwrite] at hnone
    | accounted settled => exact ⟨settled, rfl⟩
  obtain ⟨settled, hstage⟩ := haccounted
  exact ⟨⟨settled, hstage⟩, h.harmless hopen heffect c hc hwrite settled hstage⟩

theorem Sound.body (h : Sound turn s) (hopen : s.phase ≠ .closed) (hstep : BodyStep turn s s') :
    Sound turn s' := by
  have hcalls : ∀ c ∈ s'.ledger.calls, CallSound turn s' c := by
    intro c hc
    rw [hstep.ledger] at hc
    exact (h.calls c hc).later hstep.stopped fun hphase => absurd hphase hopen
  have hnothing : s.result = none := by
    cases hresult : s.result with
    | none => rfl
    | some result => exact absurd (h.ended result hresult).1 hopen
  rcases hstep.moved with ⟨hphase, hfresh, hresult⟩ | ⟨hphase, hstopped, result, hresult, hsafe⟩
  · exact
      { fresh := fun hf => by
          rw [hstep.ledger]
          exact h.fresh (hfresh hf)
        served := hstep.served h.served
        calls := hcalls
        stopped := fun hc => absurd hc hphase
        counted := by rw [hstep.ledger]; exact h.counted
        harmless := fun _ heffect => by
          rw [hstep.ledger] at heffect ⊢
          exact h.harmless hopen heffect
        ended := fun result hr => by rw [hresult, hnothing] at hr; cases hr }
  · exact
      { fresh := fun hf => by rw [hphase] at hf; cases hf
        served := hstep.served h.served
        calls := hcalls
        stopped := fun _ => hstopped
        counted := by rw [hstep.ledger]; exact h.counted
        harmless := fun hc => absurd hphase hc
        ended := fun result' hr => by
          rw [hresult] at hr
          cases hr
          refine ⟨hphase, fun hretry => ?_⟩
          rw [hstep.ledger]
          rcases hsafe hretry with hf | hsafe
          · rw [h.fresh hf]
            exact fun c hc => absurd hc List.not_mem_nil
          · exact h.safe hopen hsafe }

end Frame

/-! ## Steps of one call -/

section Calls

variable {turn : Turn} {s s' : TurnState} {i : ℕ} {c c' : MediatedCall}

/-- Call `i` has become `c'`, and the turn is where it was. -/
structure CallMoved (s s' : TurnState) (i : ℕ) (c c' : MediatedCall) : Prop where
  calls : s'.ledger.calls = s.ledger.calls.set i c'
  phase : s'.phase = s.phase
  effectiveTools : s'.effectiveTools = s.effectiveTools
  result : s'.result = s.result
  stopped : s.deadlines.aborted.isSome → s'.deadlines.aborted.isSome
  repeatable : c'.repeatable = c.repeatable
  accounted : ∀ settled, c.stage = .accounted settled →
    c'.stage = .accounted settled ∧ c'.trace = c.trace

omit [HostPlatform] in
/-- A call set in a state whose ledger, phase and signals are as they were. -/
theorem Kept.setCall (h : Kept s s') (hrepeatable : c'.repeatable = c.repeatable)
    (haccounted : ∀ settled, c.stage = .accounted settled →
      c'.stage = .accounted settled ∧ c'.trace = c.trace) :
    CallMoved s (s'.setCall i c') i c c' where
  calls := by
    show s'.ledger.calls.set i c' = _
    rw [h.ledger]
  phase := h.phase
  effectiveTools := h.effectiveTools
  result := h.result
  stopped hs := by
    show s'.deadlines.aborted.isSome
    rw [h.deadlines]
    exact hs
  repeatable := hrepeatable
  accounted := haccounted

omit [HostPlatform] in
theorem countP_outstanding_set {calls : List MediatedCall} (hi : calls[i]? = some c)
    (c' : MediatedCall) :
    (calls.set i c').countP outstanding + (if outstanding c then 1 else 0) =
      calls.countP outstanding + if outstanding c' then 1 else 0 := by
  obtain ⟨hlt, hget⟩ := List.getElem?_eq_some_iff.mp hi
  rw [List.countP_set hlt, hget]
  have hpos : outstanding c = true → 0 < calls.countP outstanding := by
    intro hout
    exact List.countP_pos_iff.mpr ⟨c, List.mem_of_getElem? hi, hout⟩
  split
  · next hout =>
      have := hpos hout
      omega
  · omega

/-- **One call moves.** The invariant is kept when the call stays sound and the two facts kept about
it move with it. -/
theorem Sound.move (h : Sound turn s) (hi : s.ledger.calls[i]? = some c)
    (hmove : CallMoved s s' i c c') (hsound : CallSound turn s' c')
    (hcounted : s'.ledger.writesWithKernel + (if outstanding c then 1 else 0) =
      s.ledger.writesWithKernel + if outstanding c' then 1 else 0)
    (hharmless : s.phase ≠ .closed → s'.ledger.effectPossible = false →
      s.ledger.effectPossible = false ∧ (c'.repeatable = false →
        ∀ settled, c'.stage = .accounted settled → entries c'.trace = [])) : Sound turn s' where
  fresh hfresh := by
    have hnone := h.fresh (hmove.phase ▸ hfresh)
    rw [hnone] at hi
    cases hi
  served := by
    rw [hmove.effectiveTools]
    exact h.served
  calls := by
    intro d hd
    rw [hmove.calls] at hd
    rcases List.mem_or_eq_of_mem_set hd with hold | rfl
    · exact (h.calls d hold).later hmove.stopped fun hclosed => hmove.phase.trans hclosed
    · exact hsound
  stopped hclosed := hmove.stopped (h.stopped (hmove.phase ▸ hclosed))
  counted := by
    have hset := countP_outstanding_set hi c'
    rw [hmove.calls]
    have := h.counted
    omega
  harmless hopen heffect := by
    rw [hmove.phase] at hopen
    obtain ⟨hbefore, hthis⟩ := hharmless hopen heffect
    intro d hd hwrite settled hstage
    rw [hmove.calls] at hd
    rcases List.mem_or_eq_of_mem_set hd with hold | rfl
    · exact h.harmless hopen hbefore d hold hwrite settled hstage
    · exact hthis hwrite settled hstage
  ended result hresult := by
    obtain ⟨hclosed, hkept⟩ := h.ended result (hmove.result ▸ hresult)
    refine ⟨hmove.phase.trans hclosed, fun hretry d hd hwrite => ?_⟩
    rw [hmove.calls] at hd
    rcases List.mem_or_eq_of_mem_set hd with hold | rfl
    · exact hkept hretry d hold hwrite
    · rw [hmove.repeatable] at hwrite
      obtain ⟨⟨settled, hstage⟩, hentries⟩ := hkept hretry c (List.mem_of_getElem? hi) hwrite
      obtain ⟨hstage', htrace⟩ := hmove.accounted settled hstage
      exact ⟨⟨settled, hstage'⟩, htrace ▸ hentries⟩

omit [HostPlatform] in
theorem answerOf_leased (surroundings : (o : KernelOp) → o.Answer) (key : JsString)
    (hopen : s.phase ≠ .closed) :
    s.answerOf turn surroundings (.leasedRegistry key) = some (.ok turn.catalogue) ∨
      ∃ e, s.answerOf turn surroundings (.leasedRegistry key) = some (.error e) := by
  unfold TurnState.answerOf
  dsimp only
  rw [if_neg hopen]
  split
  · next e _ => exact .inr ⟨e, rfl⟩
  · exact .inl rfl

/-- A kernel operation goes one answer further. -/
theorem CallSound.answered (h : CallSound turn s c) (hstopped : s.phase = .closed →
      s.deadlines.aborted.isSome) {o : KernelOp} {next : o.Answer → KernelM ToolResult}
    {surroundings : (o : KernelOp) → o.Answer} (hstage : c.stage = .withKernel (.ask o next))
    (hhonest : s.phase ≠ .closed → ∀ handler context parsedCall candidate result,
      o = .invokeHandler handler context parsedCall → isSafeToRepeat handler.definition = false →
      surroundings (.invokeHandler handler context parsedCall) = .returned (some candidate) →
      acceptToolResult c.call candidate = some result → result.status ≠ .denied) :
    CallSound turn s { c with
      trace := c.trace ++ [⟨o, s.answerOf turn surroundings o⟩]
      stage := .withKernel (next (s.answerOf turn surroundings o)) } where
  follows := by
    have hfollows := h.follows
    unfold Follows at hfollows ⊢
    rw [hstage] at hfollows
    exact hfollows.snoc _
  leased hopen key answer hmem := by
    rcases List.mem_append.mp hmem with hold | hnew
    · exact h.leased hopen key answer hold
    · cases List.mem_singleton.mp hnew
      exact answerOf_leased surroundings key hopen
  checked t u htrace := by
    rcases List.eq_nil_or_concat u with rfl | ⟨u', last, rfl⟩
    · -- the signal is being read now, and it has not fired: the turn is open
      obtain ⟨hold, hnew⟩ := List.append_inj' htrace rfl
      have hevent := List.singleton_inj.mp hnew
      rw [← hold]
      apply h.leased
      intro hclosed
      obtain ⟨rfl, hanswer⟩ := Sigma.mk.inj hevent
      have hunfired : s.deadlines.aborted.isSome = false := eq_of_heq hanswer
      rw [hstopped hclosed] at hunfired
      cases hunfired
    · have hwhole : c.trace ++ [⟨o, s.answerOf turn surroundings o⟩] =
          (t ++ ⟨.signalAborted, false⟩ :: u') ++ [last] := by
        rw [List.concat_eq_append] at htrace
        rw [List.append_assoc]
        exact htrace
      exact h.checked t u' (List.append_inj' hwhole rfl).1
  honest hopen handler context parsedCall candidate result hmem := by
    rcases List.mem_append.mp hmem with hold | hnew
    · exact h.honest hopen handler context parsedCall candidate result hold
    · obtain ⟨rfl, hanswer⟩ := Sigma.mk.inj (List.mem_singleton.mp hnew)
      intro hwrites
      exact hhonest hopen handler context parsedCall candidate result rfl hwrites
        (eq_of_heq hanswer).symm
  classified := by
    rcases h.classified with ⟨result, hrefused⟩ | hclass
    · rw [hstage] at hrefused
      cases hrefused
    · exact .inr hclass

theorem Sound.kernelAnswers (h : Sound turn s) (hi : s.ledger.calls[i]? = some c)
    {surroundings : (o : KernelOp) → o.Answer}
    (hdenies : DeniesBeforeEffect s (.call i (.kernelAnswers surroundings)))
    (hstep : s.kernelAnswers turn i c surroundings = some s') : Sound turn s' := by
  unfold TurnState.kernelAnswers at hstep
  split at hstep
  · next o next hstage =>
      cases Option.some.inj hstep
      have hc := List.mem_of_getElem? hi
      refine h.move hi
        ((Kept.refl s).setCall rfl fun _ hs => absurd (hstage.symm.trans hs) nofun) ?_ ?_ ?_
      · refine ((h.calls c hc).answered h.stopped hstage ?_).later id id
        intro hopen handler context parsedCall candidate result ho
        subst ho
        exact hdenies hopen c handler context parsedCall next candidate result hi hstage
      · simp [outstanding, hstage, TurnState.setCall]
      · intro _ heffect
        exact ⟨heffect, fun _ _ hs => by cases hs⟩
  · cases hstep

/-- A call past the kernel's promise keeps what its trace says. -/
theorem CallSound.restage (h : CallSound turn s c) {stage : CallStage}
    (hkernel : ∀ result, c.stage ≠ .refused result)
    (hfollows : Follows turn s { c with stage }) : CallSound turn s { c with stage } where
  follows := hfollows
  leased := h.leased
  checked := h.checked
  honest := h.honest
  classified := by
    rcases h.classified with ⟨result, hrefused⟩ | hclass
    · exact absurd hrefused (hkernel result)
    · exact .inr hclass

theorem Sound.kernelSettles (h : Sound turn s) (hi : s.ledger.calls[i]? = some c)
    (hstep : s.kernelSettles i c = some s') : Sound turn s' := by
  have hc := h.calls c (List.mem_of_getElem? hi)
  have hfollows := hc.follows
  unfold TurnState.kernelSettles at hstep
  unfold Follows at hfollows
  split at hstep
  · next result hstage =>
      cases Option.some.inj hstep
      rw [hstage] at hfollows
      refine h.move hi
        ((Kept.refl s).setCall rfl fun _ hs => absurd (hstage.symm.trans hs) nofun) ?_ ?_ ?_
      · refine (hc.restage (fun _ hs => absurd (hstage.symm.trans hs) nofun) ?_).later id id
        exact ⟨.ok result, hfollows, rfl⟩
      · simp [outstanding, hstage, TurnState.setCall]
      · intro _ heffect
        exact ⟨heffect, fun _ _ hs => by cases hs⟩
  · next e hstage =>
      cases Option.some.inj hstep
      rw [hstage] at hfollows
      have hkept := (Kept.refl s).watchAudit (s.thrownOf e)
      refine h.move hi (hkept.setCall rfl fun _ hs => absurd (hstage.symm.trans hs) nofun) ?_ ?_ ?_
      · refine (hc.restage (fun _ hs => absurd (hstage.symm.trans hs) nofun) ?_).later
          (fun hs => hkept.deadlines.symm ▸ hs) (fun hs => hkept.phase.trans hs)
        refine ⟨.error e, hfollows, e, rfl, fun houtage => ?_⟩
        -- an abort's own reason may be an outage, and then the turn has been aborted
        cases e with
        | auditUnavailable effect => exact .inl (congrArg _ (Thrown.auditUnavailable.inj houtage))
        | aborted =>
            right
            cases haborted : s.deadlines.aborted with
            | none =>
                unfold TurnState.thrownOf at houtage
                rw [haborted] at houtage
                cases houtage
            | some reason => rfl
      · have hledger : (s.watchAudit (s.thrownOf e)).ledger.writesWithKernel =
            s.ledger.writesWithKernel := congrArg _ hkept.ledger
        simp [outstanding, hstage, TurnState.setCall, hledger]
      · intro _ heffect
        have hledger : (s.watchAudit (s.thrownOf e)).ledger.effectPossible =
            s.ledger.effectPossible := congrArg _ hkept.ledger
        refine ⟨hledger ▸ heffect, fun _ _ hs => by cases hs⟩
  · cases hstep

theorem CallSound.reanswer (h : CallSound turn s c) (answer : Option (Except Thrown ToolResult)) :
    CallSound turn s { c with answer } :=
  ⟨h.follows, h.leased, h.checked, h.honest, h.classified⟩

/-- A call handed back: nothing is counted anew. -/
theorem Sound.handBack (h : Sound turn s) (hi : s.ledger.calls[i]? = some c) (hkept : Kept s s')
    (answer : Option (Except Thrown ToolResult)) :
    Sound turn (s'.setCall i { c with answer }) := by
  have hc := h.calls c (List.mem_of_getElem? hi)
  have hledger := hkept.ledger
  refine h.move hi (hkept.setCall rfl fun _ hs => ⟨hs, rfl⟩) ?_ ?_ ?_
  · exact (hc.reanswer answer).later (fun hs => hkept.deadlines.symm ▸ hs)
      (fun hs => hkept.phase.trans hs)
  · show s'.ledger.writesWithKernel + _ = _
    rw [hledger]
    rfl
  · intro hopen heffect
    change s'.ledger.effectPossible = false at heffect
    rw [hledger] at heffect
    refine ⟨heffect, fun hwrite settled hstage => ?_⟩
    exact h.harmless hopen heffect c (List.mem_of_getElem? hi) hwrite settled hstage

theorem Sound.deliver (h : Sound turn s) (hi : s.ledger.calls[i]? = some c)
    (hstep : s.deliver i c = some s') : Sound turn s' := by
  unfold TurnState.deliver at hstep
  split at hstep
  · split at hstep
    · cases Option.some.inj hstep
      exact h.handBack hi (Kept.refl s) _
    · split at hstep
      · cases Option.some.inj hstep
        exact h.handBack hi (Kept.refl s) _
      · cases Option.some.inj hstep
        exact h.handBack hi ((Kept.refl s).emit _) _
  · cases Option.some.inj hstep
    exact h.handBack hi (Kept.refl s) _
  · cases Option.some.inj hstep
    exact h.handBack hi (Kept.refl s) _
  · cases hstep

theorem Sound.abandon (h : Sound turn s) (hi : s.ledger.calls[i]? = some c)
    (hstep : s.abandon i c = some s') : Sound turn s' := by
  unfold TurnState.abandon at hstep
  split at hstep
  · cases hstep
  · cases Option.some.inj hstep
    exact h.handBack hi (Kept.refl s) _
  · cases hstep

theorem Sound.outstanding_pos (h : Sound turn s) (hi : s.ledger.calls[i]? = some c)
    (hout : outstanding c = true) : 0 < s.ledger.writesWithKernel := by
  rw [h.counted]
  exact List.countP_pos_iff.mpr ⟨c, List.mem_of_getElem? hi, hout⟩

/-- **A settled call is accounted for.** It leaves the kernel's count, and what it leaves behind is
that it may have had an effect, or that it entered no handler. -/
theorem Sound.account (h : Sound turn s) (hi : s.ledger.calls[i]? = some c)
    {settled : Except Thrown ToolResult} {isOutage harmless : Bool} {deadlines : TurnDeadlines}
    (hstage : c.stage = .watched settled isOutage)
    (hstopped : s.deadlines.aborted.isSome → deadlines.aborted.isSome)
    (hharmless : s.phase ≠ .closed → c.repeatable = false → harmless = true →
      entries c.trace = []) :
    Sound turn ({ s.settleWrite c harmless with deadlines }.setCall i
      { c with stage := .accounted settled }) := by
  have hc := h.calls c (List.mem_of_getElem? hi)
  refine h.move hi ⟨rfl, rfl, rfl, rfl, hstopped, rfl,
    fun _ hs => absurd (hstage.symm.trans hs) nofun⟩ ?_ ?_ ?_
  · refine (hc.restage (fun _ hs => absurd (hstage.symm.trans hs) nofun) ?_).later hstopped id
    have hfollows := hc.follows
    unfold Follows at hfollows ⊢
    rw [hstage] at hfollows
    exact hfollows
  · have hpos := h.outstanding_pos hi
    show s.ledger.writesWithKernel - (if c.repeatable then 0 else 1) + _ = _ + _
    cases hwrite : c.repeatable with
    | true => simp [outstanding, hwrite]
    | false =>
        have hout : outstanding c = true := by simp [outstanding, hwrite, hstage]
        have := hpos hout
        simp only [outstanding, hwrite, hstage]
        simp only [Bool.not_false, Bool.and_false, Bool.and_true, Bool.false_eq_true, ↓reduceIte]
        omega
  · intro hopen heffect
    change (s.ledger.effectPossible || (!c.repeatable && !harmless)) = false at heffect
    simp only [Bool.or_eq_false_iff] at heffect
    refine ⟨heffect.1, fun hwrite _ _ => hharmless hopen hwrite ?_⟩
    change c.repeatable = false at hwrite
    simpa [hwrite] using heffect.2

theorem Sound.accountFor (h : Sound turn s) (hi : s.ledger.calls[i]? = some c)
    (hstep : s.accountFor i c = some s') : Sound turn s' := by
  have hc := h.calls c (List.mem_of_getElem? hi)
  have hfollows := hc.follows
  unfold TurnState.accountFor at hstep
  unfold Follows at hfollows
  split at hstep
  · next result isOutage hstage =>
      cases Option.some.inj hstep
      rw [hstage] at hfollows
      obtain ⟨r, hrun, rfl⟩ := hfollows
      refine h.account hi hstage id ?_
      intro hopen hwrite hrefused
      exact hc.unentered_of_refused (hc.honest hopen) hwrite hrun hrefused
  · next thrown isOutage hstage =>
      cases Option.some.inj hstep
      rw [hstage] at hfollows
      obtain ⟨r, hrun, e, rfl, houtage⟩ := hfollows
      have hunentered : s.phase ≠ .closed → c.repeatable = false →
          decide (thrown = .auditUnavailable .none ∧ s.deadlines.aborted.isNone) = true →
          entries c.trace = [] := by
        intro _ _ hrefused
        obtain ⟨hthrown, hnone⟩ := of_decide_eq_true hrefused
        apply (accounted_of_finishes hrun).told.outage
        rcases houtage hthrown with rfl | haborted
        · rfl
        · rw [Option.isNone_iff_eq_none.mp hnone] at haborted
          cases haborted
      split
      · refine h.account hi hstage ?_ hunentered
        intro hs
        show (s.deadlines.drain thrown).aborted.isSome
        rw [TurnDeadlines.drain_keeps hs]
        exact hs
      · exact h.account hi hstage id hunentered
  · cases hstep

/-! ## A call asked for -/

/-- Only what the invariant does not read has changed. -/
structure Untouched (s s' : TurnState) : Prop where
  phase : s'.phase = s.phase
  deadlines : s'.deadlines = s.deadlines
  effectiveTools : s'.effectiveTools = s.effectiveTools
  result : s'.result = s.result
  calls : s'.ledger.calls = s.ledger.calls
  writesWithKernel : s'.ledger.writesWithKernel = s.ledger.writesWithKernel
  effectPossible : s'.ledger.effectPossible = s.ledger.effectPossible

omit [HostPlatform] in
theorem untouched_emit (s : TurnState) (data : ExecutionEventData) : Untouched s (s.emit data) :=
  ⟨rfl, rfl, rfl, rfl, rfl, rfl, rfl⟩

omit [HostPlatform] in
theorem untouched_recordRefusedCall (turn : Turn) (s : TurnState) (result : ToolResult)
    (cause : Option JsString) : Untouched s (s.recordRefusedCall turn result cause) := by
  unfold TurnState.recordRefusedCall
  split <;> exact ⟨rfl, rfl, rfl, rfl, rfl, rfl, rfl⟩

omit [HostPlatform] in
theorem untouched_countCall (s : TurnState) : Untouched s s.countCall :=
  ⟨rfl, rfl, rfl, rfl, rfl, rfl, rfl⟩

omit [HostPlatform] in
theorem untouched_countStep (s : TurnState) (step : Option ℕ) : Untouched s (s.countStep step) := by
  cases step <;> exact ⟨rfl, rfl, rfl, rfl, rfl, rfl, rfl⟩

theorem Sound.untouched (h : Sound turn s) (hsame : Untouched s s') : Sound turn s' where
  fresh hfresh := by
    rw [hsame.calls]
    exact h.fresh (hsame.phase ▸ hfresh)
  served := by
    rw [hsame.effectiveTools]
    exact h.served
  calls := by
    rw [hsame.calls]
    intro d hd
    exact (h.calls d hd).later (fun hs => hsame.deadlines.symm ▸ hs)
      fun hclosed => hsame.phase.trans hclosed
  stopped hclosed := by
    rw [hsame.deadlines]
    exact h.stopped (hsame.phase ▸ hclosed)
  counted := by
    rw [hsame.writesWithKernel, hsame.calls]
    exact h.counted
  harmless hopen heffect := by
    rw [hsame.calls]
    exact h.harmless (hsame.phase ▸ hopen) (hsame.effectPossible ▸ heffect)
  ended result hresult := by
    rw [hsame.phase, hsame.calls]
    exact h.ended result (hsame.result ▸ hresult)

/-- A call is added that has entered nothing. -/
theorem Sound.add (h : Sound turn s) (hopen : s.phase ≠ .closed) (hstarted : s.phase ≠ .fresh)
    (hsound : CallSound turn s c) (hnew : ∀ settled, c.stage ≠ .accounted settled)
    {writes : ℕ} (hwrites : writes = s.ledger.writesWithKernel + if outstanding c then 1 else 0) :
    Sound turn { s with ledger :=
      { s.ledger with calls := s.ledger.calls ++ [c], writesWithKernel := writes } } where
  fresh hfresh := absurd hfresh hstarted
  served := h.served
  calls := by
    intro d hd
    rcases List.mem_append.mp hd with hold | hnew
    · exact (h.calls d hold).later id id
    · rw [List.mem_singleton.mp hnew]
      exact hsound.later id id
  stopped := h.stopped
  counted := by
    show writes = (s.ledger.calls ++ [c]).countP outstanding
    rw [List.countP_append, hwrites, h.counted]
    simp
  harmless hopen' heffect d hd hwrite settled hstage := by
    rcases List.mem_append.mp hd with hold | hlast
    · exact h.harmless hopen' heffect d hold hwrite settled hstage
    · rw [List.mem_singleton.mp hlast] at hstage
      exact absurd hstage (hnew settled)
  ended result hresult := absurd (h.ended result hresult).1 hopen

omit [HostPlatform] in
theorem leased_nil (catalogue : ToolRegistry) : Leased catalogue [] :=
  fun _ _ hmem => absurd hmem List.not_mem_nil

/-- A call that has asked the kernel nothing yet. -/
theorem callSound_of_untraced (htrace : c.trace = []) (hfollows : Follows turn s c)
    (hclassified : Classified turn.catalogue c) : CallSound turn s c where
  follows := hfollows
  leased _ := htrace ▸ leased_nil _
  checked t u heq := by simp [htrace] at heq
  honest _ _ _ _ _ _ hmem := by simp [htrace] at hmem
  classified := hclassified

theorem Sound.refuseCall (h : Sound turn s) (hopen : s.phase ≠ .closed) (hstarted : s.phase ≠ .fresh)
    (call : ToolCall) (step : Option ℕ) (now code message : JsString) (cause : Option JsString) :
    Sound turn (s.refuseCall turn call step now code message cause) := by
  have hemitted := h.untouched
    (untouched_emit s (TurnState.completed (envelopeRefusal call now code message) step))
  have hrecorded := hemitted.untouched
    (untouched_recordRefusedCall turn _ (envelopeRefusal call now code message) cause)
  refine hrecorded.add hopen hstarted ?_ ?_ ?_
  · apply callSound_of_untraced rfl
    · exact ⟨rfl, rfl⟩
    · exact .inl ⟨_, rfl⟩
  · exact fun _ hs => by cases hs
  · simp [outstanding]

/-- A name the turn is served under is repeatable where its handler is. -/
theorem Sound.served_repeatable (h : Sound turn s) {handler : ToolHandler}
    (hmem : handler ∈ turn.catalogue.tools) (hserved : handler.definition ∈ s.effectiveTools) :
    handler.definition.name ∈ (s.effectiveTools.filter isSafeToRepeat).map ToolDefinition.name ↔
      isSafeToRepeat handler.definition = true := by
  constructor
  · intro hname
    obtain ⟨d, hd, heq⟩ := List.mem_map.mp hname
    obtain ⟨hserved', hsafe⟩ := List.mem_filter.mp hd
    obtain ⟨other, hother, rfl⟩ := h.served d hserved'
    rw [turn.catalogue.eq_of_name hmem hother heq.symm]
    exact hsafe
  · intro hsafe
    exact List.mem_map.mpr ⟨handler.definition, List.mem_filter.mpr ⟨hserved, hsafe⟩, rfl⟩

/-- **A call handed to the kernel is counted by its handler's own definition.** -/
theorem Sound.admitCall (h : Sound turn s) (hopen : s.phase ≠ .closed) (hstarted : s.phase ≠ .fresh)
    {call : ToolCall} (hoffered : call.tool ∈ s.effectiveTools.map ToolDefinition.name)
    (step : Option ℕ) (now : JsString) : Sound turn (s.admitCall turn call step now) := by
  obtain ⟨d, hserved, hname⟩ := List.mem_map.mp hoffered
  obtain ⟨handler, hmem, rfl⟩ := h.served d hserved
  unfold TurnState.admitCall TurnState.addCall
  refine h.add hopen hstarted ?_ ?_ ?_
  · apply callSound_of_untraced rfl
    · exact Program.Reaches.here _
    · refine .inr ⟨handler, hmem, hname, ?_⟩
      rw [Bool.eq_iff_iff, decide_eq_true_eq, ← hname]
      exact h.served_repeatable hmem hserved
  · exact fun _ hs => by cases hs
  · show _ + _ = _ + _
    simp only [outstanding, Bool.and_true]
    split <;> simp_all

theorem Sound.mediateTool (h : Sound turn s) (hstarted : s.pluginStarted = true)
    (candidate : ToolCall) (declared : Option ℤ) (now : JsString) :
    Sound turn (s.mediateTool turn candidate declared now) := by
  have hfresh : s.phase ≠ .fresh := by
    intro hphase
    simp [TurnState.pluginStarted, hphase] at hstarted
  unfold TurnState.mediateTool
  split
  · exact h
  · next hactive =>
      have hopen : s.phase ≠ .closed := by
        intro hphase
        simp [TurnState.hostActive, hphase] at hactive
      split
      · next call step _ _ =>
          unfold TurnState.requestTool
          -- the events, the steps and the count of calls are not in the invariant
          have hrequested := h.untouched (untouched_emit s (.toolRequested call.id call.tool step))
          dsimp only
          split
          · exact hrequested.refuseCall hopen hfresh ..
          split
          · exact hrequested.refuseCall hopen hfresh ..
          have hstepped := hrequested.untouched (untouched_countStep _ step)
          have hphase :=
            (untouched_countStep (s.emit (.toolRequested call.id call.tool step)) step).phase
          split
          · exact hstepped.refuseCall (hphase ▸ hopen) (hphase ▸ hfresh) ..
          have hcounted := hstepped.untouched (untouched_countCall _)
          split
          · exact hcounted.refuseCall (hphase ▸ hopen) (hphase ▸ hfresh) ..
          · next hoffered =>
              exact hcounted.admitCall (hphase ▸ hopen) (hphase ▸ hfresh) (not_not.mp hoffered) ..
      · exact h

/-! ## Runs -/

theorem Sound.signalled (h : Sound turn s) {deadlines : TurnDeadlines}
    (hstopped : s.deadlines.aborted.isSome → deadlines.aborted.isSome)
    (hstep : s.signalled deadlines = some s') : Sound turn s' := by
  unfold TurnState.signalled at hstep
  split at hstep
  · cases hstep
  · next hphase =>
      cases Option.some.inj hstep
      exact
        { fresh := h.fresh
          served := h.served
          calls := fun d hd => (h.calls d hd).later hstopped id
          stopped := fun hclosed => hstopped (h.stopped hclosed)
          counted := h.counted
          harmless := h.harmless
          ended := h.ended }

theorem Sound.call (h : Sound turn s) (hi : s.ledger.calls[i]? = some c) {event : CallEvent}
    (hdenies : DeniesBeforeEffect s (.call i event)) (hstep : callStep turn s i c event = some s') :
    Sound turn s' := by
  cases event with
  | kernelAnswers surroundings => exact h.kernelAnswers hi hdenies hstep
  | kernelSettles => exact h.kernelSettles hi hstep
  | accounts => exact h.accountFor hi hstep
  | delivers => exact h.deliver hi hstep
  | abandons => exact h.abandon hi hstep

/-- A step of the turn body is taken in the phase it belongs to. -/
theorem Sound.inPhase (h : Sound turn s) (phase : TurnPhase) {next : TurnState}
    (hstep : (if s.phase = phase then some next else none) = some s')
    (hopen : phase ≠ .closed) (hbody : s.phase = phase → BodyStep turn s next) : Sound turn s' := by
  split at hstep
  · next hphase =>
      cases Option.some.inj hstep
      exact h.body (hphase ▸ hopen) (hbody hphase)
  · cases hstep

/-- **Every step keeps the invariant**, whatever the outside does, save a `denied` from inside a
handler whose work a second run repeats. -/
theorem executorStep_sound (h : Sound turn s) {label : TurnLabel}
    (hdenies : DeniesBeforeEffect s label) (hstep : executorStep turn s label = some s') :
    Sound turn s' := by
  have hstays : ∀ reason : Thrown, s.deadlines.aborted.isSome →
      (s.deadlines.abort reason).aborted.isSome := fun reason _ => s.deadlines.abort_isSome reason
  cases label with
  | hostAborts reason => exact h.signalled (hstays reason) hstep
  | deadline => exact h.signalled (hstays .other) hstep
  | drainDeadline =>
      unfold executorStep at hstep
      dsimp only at hstep
      split at hstep
      · cases hstep
      · have hkeeps : s.deadlines.aborted.isSome → s.deadlines.startDraining.aborted.isSome := id
        exact h.signalled hkeeps hstep
  | graceExpires =>
      obtain ⟨reason, -, hsignalled⟩ := Option.bind_eq_some_iff.mp hstep
      exact h.signalled (hstays reason) hsignalled
  -- the turn body: one lemma for each of its awaits
  | start parent => exact h.inPhase .fresh hstep nofun fun hphase => body_start hphase parent
  | opened answer => exact h.inPhase .opening hstep nofun fun _ => body_opened answer
  | admitted answer => exact h.inPhase .admitting hstep nofun fun _ => body_admitted answer
  | reached answer => exact h.inPhase .reaching hstep nofun fun _ => body_reached answer
  | listed answer => exact h.inPhase .listing hstep nofun fun _ => body_listed answer
  | returned answer => exact h.inPhase .running hstep nofun fun _ => body_returned answer
  | escalated answer => exact h.inPhase .escalating hstep nofun fun _ => body_escalated answer
  | abandoned =>
      unfold executorStep at hstep
      dsimp only at hstep
      split at hstep
      · cases hstep
      · cases hstep
      · cases hstep
      · next _ hopen _ =>
          split at hstep
          · cases Option.some.inj hstep
            -- the body ends on its signal
            exact h.body hopen (Kept.refl s).caught
          · cases hstep
  | drained =>
      unfold executorStep at hstep
      dsimp only at hstep
      split at hstep
      · next waitedFor hphase =>
          split at hstep
          · cases Option.some.inj hstep
            -- the drain is over, and what was outstanding is counted
            exact h.body (hphase ▸ nofun) (Kept.refl s).endsCaught
          · cases hstep
      · cases hstep
  | emit type data =>
      unfold executorStep at hstep
      dsimp only at hstep
      split at hstep
      · cases Option.some.inj hstep
        unfold TurnState.runtimeEvent
        split
        · exact h
        split
        · exact h.untouched ⟨rfl, rfl, rfl, rfl, rfl, rfl, rfl⟩
        · exact h
      · cases hstep
  | invoke call step now =>
      unfold executorStep at hstep
      dsimp only at hstep
      split at hstep
      · next hstarted =>
          cases Option.some.inj hstep
          exact h.mediateTool hstarted call step now
      · cases hstep
  | call i event =>
      obtain ⟨c, hi, hcall⟩ := Option.bind_eq_some_iff.mp hstep
      exact h.call hi hdenies hcall

theorem sound_initial (turn : Turn) : Sound turn (.initial turn) where
  fresh _ := rfl
  served _ hd := absurd hd List.not_mem_nil
  calls _ hc := absurd hc List.not_mem_nil
  stopped := nofun
  counted := rfl
  harmless _ _ _ hc := absurd hc List.not_mem_nil
  ended := nofun

/-- The invariant keeps the promise. -/
theorem Sound.retrySafe (h : Sound turn s) : RetrySafe s := by
  intro result hresult hretry c hc handler hentered
  have hsound := h.calls c hc
  obtain ⟨t, u, context, parsedCall, htrace, hasks⟩ := hsound.entered hentered
  have hclass := hsound.repeatable_eq htrace hasks
  rw [← hclass]
  by_contra hwrites
  obtain ⟨⟨settled, hstage⟩, hentries⟩ :=
    (h.ended result hresult).2 hretry c hc (Bool.eq_false_iff.mpr hwrites)
  rcases hentered with hentry | ⟨_, _, _, hasking⟩
  · rw [hentries] at hentry
    exact List.not_mem_nil hentry
  · rw [hstage] at hasking
    cases hasking

end Calls

end Invariant

/-! ## Two turns -/

namespace Sample

open SharedOS.Kernel.Sample (reader kernel call surroundings)

/-- The same tool, classified as one that writes. -/
def writer : ToolHandler :=
  { reader with definition := { reader.definition with readWrite := .write } }

/-- A request to execute the agent, which lists the reader. -/
def request : ExecutionRequest where
  executionId := "execution"
  agent := Core.Sample.context.actor
  context := Core.Sample.context
  message :=
    { receiver := Core.Sample.context.actor
      traceId := Core.Sample.context.traceId
      purpose := Core.Sample.context.purpose }
  tools := [reader.definition]
  options := none

/-- A turn whose catalogue is this tool alone. -/
def turn (handler : ToolHandler) : Turn where
  executor :=
    { kernel, defaultMaxSteps := 16, defaultMaxToolCalls := none, drainGraceMs := 0 }
  request
  catalogue := ⟨[handler], List.nodup_singleton _⟩

/-- A turn that makes one call, sees it through, and then fails in its plugin. -/
def oneCall (answers : ℕ) (surroundings : (o : KernelOp) → o.Answer) : List TurnLabel :=
  [.start none, .opened (.ok ()), .admitted (.ok none), .reached (.ok ()),
    .listed (.ok fun _ => true), .invoke call none "2026-03-01T00:00:00Z"] ++
  List.replicate answers (.call 0 (.kernelAnswers surroundings)) ++
  [.call 0 .kernelSettles, .call 0 .accounts, .call 0 .delivers, .returned (.error .other)]

/-- The handler says that it refused. -/
def refusing : (o : KernelOp) → o.Answer
  | .invokeHandler _ context call =>
    .returned (some (refusedToolResult call .denied context.now "refused" "Refused part-way"))
  | o => surroundings o

end Sample

end SharedOS.Runtime
