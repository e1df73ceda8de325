/-
SharedOS.Runtime.Steps — what one step of a turn leaves behind.

A step is silent, or it ends the turn, or it lists the tools, states a runtime event, takes a call or
moves one. `executorStep_effect` says so once, for every label, and the invariants of the event log
and of the budgets are read off it.
-/
import SharedOS.Runtime.Executor

namespace SharedOS.Runtime

open SharedOS.Foundation SharedOS.Contracts SharedOS.Core SharedOS.Kernel

/-! ## The record of a turn -/

/-- The event a turn closes with, and the status it is returned under. -/
inductive EndsWith : ExecutionEventData → TurnEnding → Prop
  | denied (code : JsString) (error : ProtocolError) : EndsWith (.turnDenied code) (.denied error)
  | completed (output : Json) : EndsWith .turnCompleted (.succeeded output)
  | escalated (escalation : Escalation) :
      EndsWith (.turnEscalated escalation.reason escalation.reviewer) (.escalated escalation)
  | failed (code : JsString) (source : FailureSource) (error : ProtocolError) :
      EndsWith (.turnFailed code source) (.failed error)
  | cancelled (error : ProtocolError) : EndsWith .turnCancelled (.cancelled error)

/-- The phase, the signals and what a retry reads may have changed, and nothing else. -/
structure Silent (s s' : TurnState) : Prop where
  events : s'.events = s.events
  effectiveTools : s'.effectiveTools = s.effectiveTools
  toolCallCount : s'.ledger.toolCallCount = s.ledger.toolCallCount
  steps : s'.ledger.steps = s.ledger.steps
  calls : s'.ledger.calls = s.ledger.calls
  refusals : s'.refusals = s.refusals
  result : s'.result = s.result
  closed : s'.phase = .closed ↔ s.phase = .closed
  fresh : s'.phase = .fresh → s.phase = .fresh
  started : s.pluginStarted = true → s'.pluginStarted = true
  draining : s.deadlines.draining = true → s'.deadlines.draining = true

theorem Silent.refl (s : TurnState) : Silent s s :=
  ⟨rfl, rfl, rfl, rfl, rfl, rfl, rfl, Iff.rfl, id, id, id⟩

/-- The call has reached `kernel.invokeTool`. -/
def MediatedCall.handed (c : MediatedCall) : Bool :=
  match c.stage with
  | .refused _ => false
  | .withKernel _ | .watched .. | .accounted _ => true

theorem MediatedCall.handed_iff {c : MediatedCall} :
    c.handed = true ↔ ∀ result, c.stage ≠ .refused result := by
  unfold MediatedCall.handed
  cases c.stage <;> simp

/-- The call has left its `tool.completed`. -/
def MediatedCall.isCompleted (c : MediatedCall) : Bool := !c.handed || c.answer.any Except.isOk

/-- Whatever the kernel returns for the call meets `P`, or what it has returned does. -/
def MediatedCall.Returning (P : ToolResult → Prop) (c : MediatedCall) : Prop :=
  match c.stage with
  | .withKernel rest => Program.Returns P rest
  | .watched (.ok result) _ => P result
  | .accounted (.ok result) => P result
  | .refused _ | .watched (.error _) _ | .accounted (.error _) => True

/-- The call is the same call, further on. -/
structure MediatedCall.Moves (c c' : MediatedCall) : Prop where
  returning : ∀ P, c.Returning P → c'.Returning P
  call : c'.call = c.call
  step : c'.step = c.step
  handed : c'.handed = c.handed
  isCompleted : c'.isCompleted = c.isCompleted
  refused : ∀ result, c.stage = .refused result → c'.stage = .refused result ∧
    (c'.answer = c.answer ∨ c'.answer = some (.ok result))

/-! ## The turn body -/

/-- The turn body goes on, or ends the turn. -/
inductive BodyEffect (turn : Turn) (s : TurnState) : TurnState → Prop
  | silent {s' : TurnState} (h : Silent s s') : BodyEffect turn s s'
  | ended {s₁ : TurnState} {data : ExecutionEventData} {ending : TurnEnding} (h : Silent s s₁)
      (hends : EndsWith data ending) : BodyEffect turn s ((s₁.emit data).endTurn turn ending)

section Body

variable {turn : Turn} {s s' : TurnState}

theorem Silent.watchAudit (s : TurnState) (thrown : Thrown) : Silent s (s.watchAudit thrown) := by
  cases thrown <;> exact ⟨rfl, rfl, rfl, rfl, rfl, rfl, rfl, Iff.rfl, id, id, id⟩

/-- The turn body moves to a phase that is not the last. -/
theorem Silent.moves (s : TurnState) {phase : TurnPhase} (hopen : s.phase ≠ .closed)
    (hphase : phase ≠ .closed) (hfresh : phase ≠ .fresh) (hstarted : s.pluginStarted = true →
      ({ s with phase } : TurnState).pluginStarted = true) : Silent s { s with phase } where
  events := rfl
  effectiveTools := rfl
  toolCallCount := rfl
  steps := rfl
  calls := rfl
  refusals := rfl
  result := rfl
  closed := iff_of_false hphase hopen
  fresh h := absurd h hfresh
  started := hstarted
  draining := id

theorem Silent.endsCaught (h : Silent s s') : BodyEffect turn s (s'.endCaught turn) := by
  unfold TurnState.endCaught
  split
  · exact .ended h (.failed ..)
  split
  · exact .ended h (.cancelled ..)
  · exact .ended h (.failed ..)

theorem Silent.trans {s'' : TurnState} (h : Silent s s') (h' : Silent s' s'') : Silent s s'' where
  events := h'.events.trans h.events
  effectiveTools := h'.effectiveTools.trans h.effectiveTools
  toolCallCount := h'.toolCallCount.trans h.toolCallCount
  steps := h'.steps.trans h.steps
  calls := h'.calls.trans h.calls
  refusals := h'.refusals.trans h.refusals
  result := h'.result.trans h.result
  closed := h'.closed.trans h.closed
  fresh hfresh := h.fresh (h'.fresh hfresh)
  started hstarted := h'.started (h.started hstarted)
  draining hdraining := h'.draining (h.draining hdraining)

theorem Silent.caught (h : Silent s s') (hopen : s.phase ≠ .closed) :
    BodyEffect turn s (s'.caught turn) := by
  unfold TurnState.caught
  split
  · refine .silent (h.trans (Silent.moves s' ?_ nofun nofun fun _ => rfl))
    exact fun hclosed => hopen (h.closed.mp hclosed)
  · exact h.endsCaught

theorem Silent.denied (h : Silent s s') (error : ProtocolError) :
    BodyEffect turn s (s'.denyTurn turn error) := .ended h (.denied ..)

theorem Silent.failed (h : Silent s s') (code message : JsString) :
    BodyEffect turn s (s'.failTurn turn code message) := .ended h (.failed ..)

theorem effect_opened (hphase : s.phase = .opening) (answer : Except (Option Thrown) Unit) :
    BodyEffect turn s (s.opened turn answer) := by
  have hopen : s.phase ≠ .closed := hphase ▸ nofun
  cases answer with
  | ok opened => exact .silent (.moves s hopen nofun nofun fun h => by simp [TurnState.pluginStarted, hphase] at h)
  | error thrown =>
      cases thrown with
      | none => exact (Silent.refl s).denied _
      | some e => exact (Silent.watchAudit s e).caught hopen

theorem effect_admitted (hphase : s.phase = .admitting)
    (answer : Except Thrown (Option JsString)) : BodyEffect turn s (s.admitted turn answer) := by
  have hopen : s.phase ≠ .closed := hphase ▸ nofun
  cases answer with
  | ok refusal =>
      cases refusal with
      | none =>
          exact .silent (.moves s hopen nofun nofun fun h => by simp [TurnState.pluginStarted, hphase] at h)
      | some reasonCode => exact (Silent.refl s).denied _
  | error e => exact (Silent.watchAudit s e).caught hopen

theorem effect_reached (hphase : s.phase = .reaching) (answer : Except Thrown Unit) :
    BodyEffect turn s (s.reached turn answer) := by
  have hopen : s.phase ≠ .closed := hphase ▸ nofun
  cases answer with
  | ok reached =>
      exact .silent (.moves s hopen nofun nofun fun h => by simp [TurnState.pluginStarted, hphase] at h)
  | error e => exact (Silent.watchAudit s e).caught hopen

theorem effect_returned (hphase : s.phase = .running)
    (answer : Except Thrown (Option RuntimeTurnOutcome)) :
    BodyEffect turn s (s.returned turn answer) := by
  have hopen : s.phase ≠ .closed := hphase ▸ nofun
  cases answer with
  | error e => exact (Silent.refl s).caught hopen
  | ok candidate =>
      show BodyEffect turn s (if s.auditOutage.isSome = true then s.caught turn else _)
      split
      · exact (Silent.refl s).caught hopen
      · cases candidate.bind runtimeTurnOutcomeSchema with
        | none => exact (Silent.refl s).failed ..
        | some outcome =>
            cases outcome with
            | complete output => exact .ended (Silent.refl s) (.completed output)
            | fail error => exact .ended (Silent.refl s) (.failed ..)
            | escalate reason =>
                show BodyEffect turn s (if (!escalationOffered s.effectiveTools) = true then _ else _)
                split
                · exact (Silent.refl s).failed ..
                · exact .silent (.moves s hopen nofun nofun fun _ => rfl)

theorem effect_escalated (hphase : s.phase = .escalating) (answer : Except Thrown Escalation) :
    BodyEffect turn s (s.escalated turn answer) := by
  cases answer with
  | ok escalation => exact .ended (Silent.refl s) (.escalated escalation)
  | error e => exact (Silent.watchAudit s e).caught (hphase ▸ nofun)

end Body

/-! ## A mediated call -/

section Call

variable [HostPlatform] {turn : Turn} {s s' : TurnState} {i : ℕ} {c c' : MediatedCall}

/-- What becomes of one call: it moves while the rest is silent, or it completes. -/
inductive CallEffect (s : TurnState) (i : ℕ) (c : MediatedCall) : TurnState → Prop
  | moved {s₁ : TurnState} {c' : MediatedCall} (h : Silent s s₁) (hmoves : c.Moves c') :
      CallEffect s i c (s₁.setCall i c')
  | completed {candidate result : ToolResult} (hactive : s.hostActive = true)
      (hstage : c.stage = .accounted (.ok candidate)) (hanswer : c.answer = none)
      (hparse : toolResultSchema candidate = some result) :
      CallEffect s i c ((s.emit (TurnState.completed result c.step)).setCall i
        { c with answer := some (.ok result) })

omit [HostPlatform] in
/-- A call that is with the kernel or back from it, at another stage. -/
theorem MediatedCall.Moves.restage (hc : c.handed = true) {stage : CallStage}
    (hstage : ∀ result, stage ≠ .refused result) {trace : KernelTrace}
    (hreturning : ∀ P, c.Returning P → ({ c with trace, stage } : MediatedCall).Returning P) :
    c.Moves { c with trace, stage } := by
  have hc' : ({ c with trace, stage } : MediatedCall).handed = true :=
    MediatedCall.handed_iff.mpr hstage
  refine ⟨hreturning, rfl, rfl, hc'.trans hc.symm, ?_, fun result hr => ?_⟩
  · rw [MediatedCall.isCompleted, MediatedCall.isCompleted, hc, hc']
  · exact absurd hr (MediatedCall.handed_iff.mp hc result)

omit [HostPlatform] in
/-- A call that rejects into the plugin. -/
theorem MediatedCall.Moves.rejects (hc : c.handed = true) (hanswer : c.answer = none)
    (thrown : Thrown) : c.Moves { c with answer := some (.error thrown) } := by
  refine ⟨fun _ h => h, rfl, rfl, rfl, ?_, fun result hr => ?_⟩
  · rw [MediatedCall.isCompleted, MediatedCall.isCompleted, hanswer]
    rfl
  · exact absurd hr (MediatedCall.handed_iff.mp hc result)

omit [HostPlatform] in
/-- A refused call is handed back what it was refused with. -/
theorem MediatedCall.Moves.handsBack {result : ToolResult} (hstage : c.stage = .refused result) :
    c.Moves { c with answer := some (.ok result) } := by
  have hrefused : c.handed = false := by rw [MediatedCall.handed, hstage]
  refine ⟨fun _ h => h, rfl, rfl, rfl, ?_, fun other hother => ?_⟩
  · rw [MediatedCall.isCompleted, MediatedCall.isCompleted, hrefused]
    show (!c.handed || _) = _
    rw [hrefused]
    rfl
  · rw [hstage] at hother
    cases hother
    exact ⟨hstage, .inr rfl⟩

theorem effect_kernelAnswers {surroundings : (o : KernelOp) → o.Answer}
    (h : s.kernelAnswers turn i c surroundings = some s') : CallEffect s i c s' := by
  unfold TurnState.kernelAnswers at h
  split at h
  · next hstage =>
      cases h
      exact .moved (Silent.refl s) (.restage (MediatedCall.handed_iff.mpr (by simp [hstage])) (fun _ h => by cases h)
        fun P h => by
          rw [MediatedCall.Returning, hstage] at h
          exact h _)
  · cases h

theorem effect_kernelSettles (h : s.kernelSettles i c = some s') : CallEffect s i c s' := by
  unfold TurnState.kernelSettles at h
  split at h
  · next hstage =>
      cases h
      exact .moved (Silent.refl s) (.restage (MediatedCall.handed_iff.mpr (by simp [hstage])) (fun _ h => by cases h)
        fun P h => by
          rw [MediatedCall.Returning, hstage] at h
          exact h)
  · next hstage =>
      cases h
      exact .moved (Silent.watchAudit s _) (.restage (MediatedCall.handed_iff.mpr (by simp [hstage])) (fun _ h => by cases h)
        fun P h => by
          rw [MediatedCall.Returning, hstage] at h
          trivial)
  · cases h

omit [HostPlatform] in
theorem silent_settleWrite (s : TurnState) (c : MediatedCall) (harmless : Bool) :
    Silent s (s.settleWrite c harmless) := ⟨rfl, rfl, rfl, rfl, rfl, rfl, rfl, Iff.rfl, id, id, id⟩

omit [HostPlatform] in
theorem drain_draining (d : TurnDeadlines) (reason : Thrown) : (d.drain reason).draining = true := by
  unfold TurnDeadlines.drain
  split
  · rfl
  · split <;> rfl

omit [HostPlatform] in
theorem Silent.signals (s : TurnState) {deadlines : TurnDeadlines}
    (h : s.deadlines.draining = true → deadlines.draining = true) :
    Silent s { s with deadlines } := ⟨rfl, rfl, rfl, rfl, rfl, rfl, rfl, Iff.rfl, id, id, h⟩

theorem effect_accountFor (h : s.accountFor i c = some s') : CallEffect s i c s' := by
  unfold TurnState.accountFor at h
  split at h
  · next hstage =>
      cases h
      exact .moved (silent_settleWrite ..) (.restage (MediatedCall.handed_iff.mpr (by simp [hstage])) (fun _ h => by cases h)
        fun P h => by
          rw [MediatedCall.Returning, hstage] at h
          exact h)
  · next thrown isOutage hstage =>
      cases h
      refine .moved ?_
        (.restage (MediatedCall.handed_iff.mpr (by simp [hstage])) (fun _ h => by cases h)
        fun P h => by
          rw [MediatedCall.Returning, hstage] at h
          trivial)
      split
      · exact (silent_settleWrite ..).trans (Silent.signals _ fun _ => drain_draining _ _)
      · exact silent_settleWrite ..
  · cases h

theorem effect_deliver (h : s.deliver i c = some s') : CallEffect s i c s' := by
  unfold TurnState.deliver at h
  split at h
  · next candidate hstage hanswer =>
      split at h
      · cases h
        exact .moved (Silent.refl s) (.rejects (MediatedCall.handed_iff.mpr (by simp [hstage])) hanswer _)
      · next result hparse =>
          split at h
          · cases h
            exact .moved (Silent.refl s) (.rejects (MediatedCall.handed_iff.mpr (by simp [hstage])) hanswer _)
          · next hactive =>
              cases h
              exact .completed (by simpa using hactive) hstage hanswer hparse
  · next hstage hanswer =>
      cases h
      exact .moved (Silent.refl s) (.rejects (MediatedCall.handed_iff.mpr (by simp [hstage])) hanswer _)
  · next hstage hanswer =>
      cases h
      exact .moved (Silent.refl s) (.handsBack hstage)
  · cases h

theorem effect_abandon (h : s.abandon i c = some s') : CallEffect s i c s' := by
  unfold TurnState.abandon at h
  split at h
  · cases h
  · next hanswer haborted hrefused =>
      cases h
      exact .moved (Silent.refl s) (.rejects (MediatedCall.handed_iff.mpr fun result hr => hrefused result hr) hanswer _)
  · cases h

theorem callStep_effect {event : CallEvent} (h : callStep turn s i c event = some s') :
    CallEffect s i c s' := by
  cases event with
  | kernelAnswers surroundings => exact effect_kernelAnswers h
  | kernelSettles => exact effect_kernelSettles h
  | accounts => exact effect_accountFor h
  | delivers => exact effect_deliver h
  | abandons => exact effect_abandon h

end Call

/-! ## A call taken -/

section Request

variable {turn : Turn} {s s' : TurnState} {call : ToolCall} {step : Option ℕ} {now : JsString}

/-- The rule that stops a call in this state, by the code it refuses with. -/
def stoppedBy (turn : Turn) (s : TurnState) (call : ToolCall) (step : Option ℕ) :
    Option JsString :=
  if s.deadlines.draining then some "turn_draining"
  else if step.any fun step => !stepIsWithinBudget step s.ledger.steps turn.maxSteps then
    some "step_limit_exceeded"
  else if turn.maxToolCalls ≤ s.ledger.toolCallCount then some "tool_call_limit_exceeded"
  else if call.tool ∉ s.effectiveTools.map ToolDefinition.name then some "tool_unavailable"
  else none

/-- The state with these counts of calls and of steps. -/
def TurnState.withCounts (s : TurnState) (toolCallCount : ℕ) (steps : List ℕ) : TurnState :=
  { s with ledger := { s.ledger with toolCallCount, steps } }

/-- The steps after a call: those before, or one more that is within the budget. -/
inductive StepsAfter (turn : Turn) (steps : List ℕ) : Option ℕ → List ℕ → Prop
  | undeclared : StepsAfter turn steps none steps
  | declared (n : ℕ) (h : stepIsWithinBudget n steps turn.maxSteps = true) :
      StepsAfter turn steps (some n) (steps.insert n)

variable [HostPlatform]

/-- What becomes of a call that parses: it is requested, and then refused or admitted. -/
inductive RequestEffect (turn : Turn) (s : TurnState) (call : ToolCall) (step : Option ℕ)
    (now : JsString) : TurnState → Prop
  | refused {code message : JsString} {cause : Option JsString} {count : ℕ} {steps : List ℕ}
      (hstopped : stoppedBy turn s call step = some code)
      (hcount : count = s.ledger.toolCallCount ∨
        count = s.ledger.toolCallCount + 1 ∧ s.ledger.toolCallCount < turn.maxToolCalls)
      (hsteps : steps = s.ledger.steps ∨ StepsAfter turn s.ledger.steps step steps) :
      RequestEffect turn s call step now
        (((s.emit (.toolRequested call.id call.tool step)).withCounts count steps).refuseCall turn call
          step now code message cause)
  | admitted {steps : List ℕ} (hstopped : stoppedBy turn s call step = none)
      (hdraining : s.deadlines.draining = false)
      (hcount : s.ledger.toolCallCount < turn.maxToolCalls)
      (hoffered : call.tool ∈ s.effectiveTools.map ToolDefinition.name)
      (hsteps : StepsAfter turn s.ledger.steps step steps) :
      RequestEffect turn s call step now
        (((s.emit (.toolRequested call.id call.tool step)).withCounts
          (s.ledger.toolCallCount + 1) steps).admitCall turn call step now)

theorem requestTool_effect :
    RequestEffect turn s call step now (s.requestTool turn call step now) := by
  unfold TurnState.requestTool
  dsimp only
  split
  · next hdraining =>
      refine @RequestEffect.refused _ turn s call step now _ _ _ s.ledger.toolCallCount s.ledger.steps
        ?_ (.inl rfl) (.inl rfl)
      rw [stoppedBy, if_pos (show s.deadlines.draining = true from hdraining)]
  next hdraining =>
  split
  · next hbudget =>
      refine @RequestEffect.refused _ turn s call step now _ _ _ s.ledger.toolCallCount s.ledger.steps
        ?_ (.inl rfl) (.inl rfl)
      rw [stoppedBy, if_neg (show ¬ s.deadlines.draining = true from hdraining),
        if_pos (show (step.any fun step => !stepIsWithinBudget step s.ledger.steps turn.maxSteps) =
          true from hbudget)]
  next hbudget =>
  -- the counts a declared step leaves
  obtain ⟨steps, hsteps, hcounted⟩ : ∃ steps, StepsAfter turn s.ledger.steps step steps ∧
      (s.emit (.toolRequested call.id call.tool step)).countStep step =
        (s.emit (.toolRequested call.id call.tool step)).withCounts s.ledger.toolCallCount steps := by
    cases step with
    | none => exact ⟨_, .undeclared, rfl⟩
    | some n => exact ⟨_, .declared n (by simpa [TurnState.emit] using hbudget), rfl⟩
  rw [hcounted]
  have hstop : stoppedBy turn s call step =
      (if turn.maxToolCalls ≤ s.ledger.toolCallCount then some "tool_call_limit_exceeded"
      else if call.tool ∉ s.effectiveTools.map ToolDefinition.name then some "tool_unavailable"
      else none : Option JsString) := by
    rw [stoppedBy, if_neg (show ¬ s.deadlines.draining = true from hdraining),
      if_neg (show ¬ (step.any fun step => !stepIsWithinBudget step s.ledger.steps turn.maxSteps) =
        true from hbudget)]
  split
  · next hlimit =>
      refine .refused ?_ (.inl rfl) (.inr hsteps)
      rw [hstop, if_pos (show turn.maxToolCalls ≤ s.ledger.toolCallCount from hlimit)]
  next hlimit =>
  have hcount : s.ledger.toolCallCount < turn.maxToolCalls := not_le.mp hlimit
  have hlimit' : ¬ turn.maxToolCalls ≤ s.ledger.toolCallCount := hlimit
  split
  · next hunoffered =>
      refine @RequestEffect.refused _ turn s call step now _ _ _ (s.ledger.toolCallCount + 1) steps
        ?_ (.inr ⟨rfl, hcount⟩) (.inr hsteps)
      rw [hstop, if_neg hlimit', if_pos (show call.tool ∉ s.effectiveTools.map _ from hunoffered)]
  · next hoffered =>
      refine .admitted ?_ (Bool.eq_false_iff.mpr hdraining) hcount (not_not.mp hoffered) hsteps
      rw [hstop, if_neg hlimit', if_neg (show ¬ call.tool ∉ s.effectiveTools.map _ from hoffered)]

end Request

/-! ## Every step -/

section Step

variable [HostPlatform] {turn : Turn} {s s' : TurnState}

/-- **What a step leaves behind**, by its label. -/
inductive StepEffect (turn : Turn) (s : TurnState) : TurnLabel → TurnState → Prop
  | body {label : TurnLabel} {s' : TurnState} (hopen : s.phase ≠ .closed)
      (h : BodyEffect turn s s') : StepEffect turn s label s'
  | silent {label : TurnLabel} {s' : TurnState} (h : Silent s s') : StepEffect turn s label s'
  | neverBegan {reason : Thrown} (hphase : s.phase = .fresh)
      (hvalid : validateTurnContext turn.request = none) :
      StepEffect turn s (.start (some reason))
        ({ s with deadlines := s.deadlines.abort reason }.endTurn turn
          (TurnState.turnCancelled true))
  | listed {visible : JsString → Bool} (hphase : s.phase = .listing) :
      StepEffect turn s (.listed (.ok visible)) (s.listed turn (.ok visible))
  | stated {type type' : JsString} {data data' : Json} (hactive : s.hostActive = true) :
      StepEffect turn s (.emit type data) (s.emit (.runtimeEvent type' data'))
  | requested {candidate call : ToolCall} {declared : Option ℤ} {step : Option ℕ} {now : JsString}
      {s' : TurnState} (hactive : s.hostActive = true) (hstarted : s.pluginStarted = true)
      (hcall : toolCallSchema candidate = some call) (hstep : parseRuntimeStep declared = some step)
      (h : RequestEffect turn s call step now s') :
      StepEffect turn s (.invoke candidate declared now) s'
  | call {i : ℕ} {c : MediatedCall} {event : CallEvent} {s' : TurnState}
      (hi : s.ledger.calls[i]? = some c) (h : CallEffect s i c s') :
      StepEffect turn s (.call i event) s'

theorem effect_start (hphase : s.phase = .fresh) (parent : Option Thrown) :
    StepEffect turn s (.start parent) (s.start turn parent) := by
  have hopen : s.phase ≠ .closed := hphase ▸ nofun
  unfold TurnState.start
  cases hvalid : validateTurnContext turn.request with
  | some error => exact .body hopen ((Silent.refl s).denied error)
  | none =>
      cases parent with
      | some reason => exact .neverBegan hphase hvalid
      | none =>
          refine .silent (.moves s hopen nofun nofun fun h => ?_)
          simp [TurnState.pluginStarted, hphase] at h

theorem effect_signalled {label : TurnLabel} {deadlines : TurnDeadlines}
    (hdraining : s.deadlines.draining = true → deadlines.draining = true)
    (h : s.signalled deadlines = some s') : StepEffect turn s label s' := by
  unfold TurnState.signalled at h
  split at h
  · cases h
  · cases h
    exact .silent (.signals s hdraining)

theorem effect_mediateTool (hstarted : s.pluginStarted = true) (candidate : ToolCall)
    (declared : Option ℤ) (now : JsString) :
    StepEffect turn s (.invoke candidate declared now)
      (s.mediateTool turn candidate declared now) := by
  unfold TurnState.mediateTool
  split
  · exact .silent (.refl s)
  · next hactive =>
      split
      · next call step hcall hstep =>
          exact .requested (by simpa using hactive) hstarted hcall hstep requestTool_effect
      · exact .silent (.refl s)

theorem effect_runtimeEvent (type : JsString) (data : Json) :
    StepEffect turn s (.emit type data) (s.runtimeEvent type data) := by
  unfold TurnState.runtimeEvent
  split
  · exact .silent (.refl s)
  · next hactive =>
      split
      · exact .stated (by simpa using hactive)
      · exact .silent (.refl s)

/-- A step of the turn body is taken in the phase it belongs to. -/
theorem effect_inPhase {label : TurnLabel} {phase : TurnPhase} {next : TurnState}
    (h : (if s.phase = phase then some next else none) = some s')
    (heffect : s.phase = phase → StepEffect turn s label next) : StepEffect turn s label s' := by
  split at h
  · next hphase =>
      cases h
      exact heffect hphase
  · cases h

/-- **Every step leaves one of these behind.** -/
theorem executorStep_effect {label : TurnLabel} (h : executorStep turn s label = some s') :
    StepEffect turn s label s' := by
  cases label with
  | hostAborts reason => exact effect_signalled (fun _ => rfl) h
  | deadline => exact effect_signalled (fun _ => rfl) h
  | drainDeadline =>
      unfold executorStep at h
      dsimp only at h
      split at h
      · cases h
      · exact effect_signalled (fun _ => rfl) h
  | graceExpires =>
      obtain ⟨reason, -, hsignalled⟩ := Option.bind_eq_some_iff.mp h
      exact effect_signalled (fun _ => rfl) hsignalled
  | start parent => exact effect_inPhase h fun hphase => effect_start hphase parent
  | opened answer =>
      exact effect_inPhase h fun hphase => .body (hphase ▸ nofun) (effect_opened hphase answer)
  | admitted answer =>
      exact effect_inPhase h fun hphase => .body (hphase ▸ nofun) (effect_admitted hphase answer)
  | reached answer =>
      exact effect_inPhase h fun hphase => .body (hphase ▸ nofun) (effect_reached hphase answer)
  | listed answer =>
      refine effect_inPhase h fun hphase => ?_
      cases answer with
      | ok visible => exact .listed hphase
      | error e =>
          have hopen : s.phase ≠ .closed := hphase ▸ nofun
          exact .body hopen ((Silent.watchAudit s e).caught hopen)
  | returned answer =>
      exact effect_inPhase h fun hphase => .body (hphase ▸ nofun) (effect_returned hphase answer)
  | escalated answer =>
      exact effect_inPhase h fun hphase => .body (hphase ▸ nofun) (effect_escalated hphase answer)
  | abandoned =>
      unfold executorStep at h
      dsimp only at h
      split at h
      · cases h
      · cases h
      · cases h
      · next _ hopen _ =>
          split at h
          · cases h
            exact .body hopen ((Silent.refl s).caught hopen)
          · cases h
  | drained =>
      unfold executorStep at h
      dsimp only at h
      split at h
      · next waitedFor hphase =>
          split at h
          · cases h
            exact .body (hphase ▸ nofun) (Silent.refl s).endsCaught
          · cases h
      · cases h
  | emit type data =>
      unfold executorStep at h
      dsimp only at h
      split at h
      · cases h
        exact effect_runtimeEvent type data
      · cases h
  | invoke candidate declared now =>
      unfold executorStep at h
      dsimp only at h
      split at h
      · next hstarted =>
          cases h
          exact effect_mediateTool hstarted candidate declared now
      · cases h
  | call i event =>
      obtain ⟨c, hi, hcall⟩ := Option.bind_eq_some_iff.mp h
      exact .call hi (callStep_effect hcall)

end Step

end SharedOS.Runtime
