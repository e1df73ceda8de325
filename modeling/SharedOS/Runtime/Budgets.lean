/-
SharedOS.Runtime.Budgets — the envelope's budgets and its gate hold from outside the plugin.

What a plugin asks of its host is counted before it reaches the kernel, so the counters bound what is
handed over whatever the plugin does in whatever order. A call that a rule stops is answered with the
rule's own code, completed in the event stream and reported to the kernel once.
-/
import Mathlib.Data.List.Dedup
import SharedOS.Foundation.Updates
import SharedOS.Runtime.RetrySafety
import SharedOS.Runtime.Steps

namespace SharedOS.Runtime

open SharedOS.Foundation SharedOS.Contracts SharedOS.Core SharedOS.Kernel

/-! ## What has been handed over -/

/-- The call, where it reached the kernel. -/
def MediatedCall.handedCall (c : MediatedCall) : Option ToolCall :=
  if c.handed then some c.call else none

/-- The step it was declared under, where it reached the kernel. -/
def MediatedCall.handedStep (c : MediatedCall) : Option ℕ := if c.handed then c.step else none

/-- The calls that reached `kernel.invokeTool`, in order. -/
def TurnState.handedCalls (s : TurnState) : List ToolCall :=
  s.ledger.calls.filterMap MediatedCall.handedCall

/-- The steps those calls were declared under. -/
def TurnState.handedSteps (s : TurnState) : List ℕ :=
  s.ledger.calls.filterMap MediatedCall.handedStep

/-- What is recorded of a call that was refused. -/
def MediatedCall.refusal (c : MediatedCall) : Option (JsString × JsString × JsString) :=
  match c.stage with
  | .refused result => result.errorCode.map fun code => (result.callId, result.tool, code)
  | .withKernel _ | .watched .. | .accounted _ => none

/-- A record of a refusal, as the results are compared. -/
def RefusedCall.entry (r : RefusedCall) : JsString × JsString × JsString :=
  (r.callId, r.tool, r.reasonCode)

/-- **The invariant of the budgets.** -/
structure Budgeted (turn : Turn) (s : TurnState) : Prop where
  unstarted : s.pluginStarted = false → s.ledger.calls = []
  count : s.ledger.toolCallCount ≤ turn.maxToolCalls
  handed : s.ledger.calls.countP MediatedCall.handed ≤ s.ledger.toolCallCount
  offered : ∀ c ∈ s.ledger.calls, c.handed = true →
    c.call.tool ∈ s.effectiveTools.map ToolDefinition.name
  below : ∀ n ∈ s.ledger.steps, n < turn.maxSteps
  distinct : s.ledger.steps.Nodup
  within : s.ledger.steps.length ≤ turn.maxSteps
  declared : ∀ c ∈ s.ledger.calls, c.handed = true → ∀ n, c.step = some n → n ∈ s.ledger.steps
  recorded : s.refusals.map RefusedCall.entry = s.ledger.calls.filterMap MediatedCall.refusal

section Invariant

variable {turn : Turn} {s s' : TurnState} {c c' : MediatedCall} {i : ℕ}

theorem budgeted_initial (turn : Turn) : Budgeted turn (.initial turn) where
  unstarted _ := rfl
  count := Nat.zero_le _
  handed := Nat.le_refl 0
  offered _ hc := absurd hc List.not_mem_nil
  below _ hn := absurd hn List.not_mem_nil
  distinct := List.nodup_nil
  within := Nat.zero_le _
  declared _ hc := absurd hc List.not_mem_nil
  recorded := rfl

/-- A step that touches nothing the budgets read. -/
theorem Budgeted.same (h : Budgeted turn s) (htools : s'.effectiveTools = s.effectiveTools)
    (hcount : s'.ledger.toolCallCount = s.ledger.toolCallCount)
    (hsteps : s'.ledger.steps = s.ledger.steps) (hcalls : s'.ledger.calls = s.ledger.calls)
    (hrefusals : s'.refusals = s.refusals)
    (hstarted : s.pluginStarted = true → s'.pluginStarted = true) : Budgeted turn s' where
  unstarted hun := by
    rw [hcalls]
    exact h.unstarted (Bool.eq_false_iff.mpr fun hs => by rw [hstarted hs] at hun; cases hun)
  count := hcount ▸ h.count
  handed := by
    rw [hcalls, hcount]
    exact h.handed
  offered := by
    rw [hcalls, htools]
    exact h.offered
  below := hsteps ▸ h.below
  distinct := hsteps ▸ h.distinct
  within := hsteps ▸ h.within
  declared := by
    rw [hcalls, hsteps]
    exact h.declared
  recorded := by
    rw [hcalls, hrefusals]
    exact h.recorded

theorem Budgeted.silent (h : Budgeted turn s) (hs : Silent s s') : Budgeted turn s' :=
  h.same hs.effectiveTools hs.toolCallCount hs.steps hs.calls hs.refusals hs.started

theorem Budgeted.body (h : Budgeted turn s) (heffect : BodyEffect turn s s') : Budgeted turn s' := by
  cases heffect with
  | silent hs => exact h.silent hs
  | ended hs hends =>
      exact h.same hs.effectiveTools hs.toolCallCount hs.steps hs.calls hs.refusals fun _ => rfl

theorem MediatedCall.Moves.refusal (h : c.Moves c') : c'.refusal = c.refusal := by
  have hhanded := h.handed
  unfold MediatedCall.refusal
  cases hstage : c.stage with
  | refused result => rw [(h.refused result hstage).1]
  | _ =>
      have hc : c'.handed = true := by
        rw [hhanded, MediatedCall.handed, hstage]
      have hc' := MediatedCall.handed_iff.mp hc
      cases hstage' : c'.stage with
      | refused result => exact absurd hstage' (hc' result)
      | _ => rfl

/-- A call that moves is the call it was, to the budgets. -/
theorem Budgeted.setCall (h : Budgeted turn s) (hi : s.ledger.calls[i]? = some c)
    (hcall : c'.call = c.call) (hstep : c'.step = c.step) (hhanded : c'.handed = c.handed)
    (hrefusal : c'.refusal = c.refusal) : Budgeted turn (s.setCall i c') := by
  have hmem : c ∈ s.ledger.calls := List.mem_of_getElem? hi
  refine ⟨fun hun => ?_, h.count, ?_, fun d hd hdh => ?_, h.below, h.distinct, h.within,
    fun d hd hdh n hn => ?_, ?_⟩
  · rw [h.unstarted hun] at hmem
    exact absurd hmem List.not_mem_nil
  · show (s.ledger.calls.set i c').countP _ ≤ _
    rw [countP_set_same hi hhanded]
    exact h.handed
  · rcases List.mem_or_eq_of_mem_set hd with hd | rfl
    · exact h.offered d hd hdh
    · rw [hcall]
      exact h.offered c hmem (hhanded ▸ hdh)
  · rcases List.mem_or_eq_of_mem_set hd with hd | rfl
    · exact h.declared d hd hdh n hn
    · exact h.declared c hmem (hhanded ▸ hdh) n (hstep ▸ hn)
  · show s.refusals.map _ = (s.ledger.calls.set i c').filterMap _
    rw [filterMap_set_same hi hrefusal]
    exact h.recorded

/-! ## A call asked for -/

variable [HostPlatform] {call : ToolCall} {step : Option ℕ} {now : JsString}

/-- The refused call, as it stands from its refusal on. -/
def refusedCall (turn : Turn) (call : ToolCall) (step : Option ℕ) (now code message : JsString) :
    MediatedCall where
  call
  step
  context := contextAt turn.executionContext now
  repeatable := true
  trace := []
  stage := .refused (envelopeRefusal call now code message)
  answer := none

omit [HostPlatform] in
theorem calls_refuseCall (turn : Turn) (s : TurnState) (call : ToolCall) (step : Option ℕ)
    (now code message : JsString) (cause : Option JsString) :
    (s.refuseCall turn call step now code message cause).ledger.calls =
      s.ledger.calls ++ [refusedCall turn call step now code message] := rfl

omit [HostPlatform] in
theorem events_refuseCall (turn : Turn) (s : TurnState) (call : ToolCall) (step : Option ℕ)
    (now code message : JsString) (cause : Option JsString) :
    (s.refuseCall turn call step now code message cause).events =
      s.events ++ [{ sequence := s.events.length
                     data := TurnState.completed (envelopeRefusal call now code message) step }] :=
  rfl

omit [HostPlatform] in
theorem entries_refuseCall (turn : Turn) (s : TurnState) (call : ToolCall) (step : Option ℕ)
    (now code message : JsString) (cause : Option JsString) :
    (s.refuseCall turn call step now code message cause).refusals.map RefusedCall.entry =
      s.refusals.map RefusedCall.entry ++ [(call.id, call.tool, code)] :=
  List.map_append

/-- The call that was admitted, as it stands before its first answer. -/
def admittedCall (turn : Turn) (s : TurnState) (call : ToolCall) (step : Option ℕ)
    (now : JsString) : MediatedCall where
  call
  step
  context := contextAt turn.executionContext now
  repeatable := call.tool ∈ (s.effectiveTools.filter isSafeToRepeat).map ToolDefinition.name
  trace := []
  stage := .withKernel (invokeTool turn.executor.kernel (contextAt turn.executionContext now) call)
  answer := none

theorem calls_admitCall (turn : Turn) (s : TurnState) (call : ToolCall) (step : Option ℕ)
    (now : JsString) :
    (s.admitCall turn call step now).ledger.calls =
      s.ledger.calls ++ [admittedCall turn s call step now] := rfl

omit [HostPlatform] in
/-- A declared step within the budget keeps the steps within it. -/
theorem StepsAfter.budgeted {steps steps' : List ℕ} (h : StepsAfter turn steps step steps')
    (hbelow : ∀ n ∈ steps, n < turn.maxSteps) (hdistinct : steps.Nodup)
    (hwithin : steps.length ≤ turn.maxSteps) :
    (∀ n ∈ steps', n < turn.maxSteps) ∧ steps'.Nodup ∧ steps'.length ≤ turn.maxSteps ∧
      (∀ n ∈ steps, n ∈ steps') ∧ ∀ n, step = some n → n ∈ steps' := by
  cases h with
  | undeclared => exact ⟨hbelow, hdistinct, hwithin, fun _ hn => hn, nofun⟩
  | declared n hbudget =>
      simp only [stepIsWithinBudget, Bool.and_eq_true, decide_eq_true_eq, Bool.or_eq_true] at hbudget
      obtain ⟨hlt, hseen⟩ := hbudget
      refine ⟨fun m hm => ?_, hdistinct.insert, ?_, fun m hm => List.mem_insert_of_mem hm, ?_⟩
      · rcases List.mem_insert_iff.mp hm with rfl | hm
        · exact hlt
        · exact hbelow m hm
      · by_cases hmem : n ∈ steps
        · rw [List.insert_of_mem hmem]
          exact hwithin
        · rw [List.length_insert_of_not_mem hmem]
          have hroom := hseen.resolve_left hmem
          omega
      · rintro m hm
        cases hm
        exact List.mem_insert_self

omit [HostPlatform] in
/-- A call is refused within what the counters allow. -/
theorem Budgeted.refuseCall (h : Budgeted turn s) {count : ℕ} {steps : List ℕ}
    (hcount : s.ledger.toolCallCount ≤ count) (hlimit : count ≤ turn.maxToolCalls)
    (hbelow : ∀ n ∈ steps, n < turn.maxSteps) (hdistinct : steps.Nodup)
    (hwithin : steps.length ≤ turn.maxSteps) (hkept : ∀ n ∈ s.ledger.steps, n ∈ steps)
    (hstarted : s.pluginStarted = true) (data : ExecutionEventData) (code message : JsString)
    (cause : Option JsString) :
    Budgeted turn (((s.emit data).withCounts count steps).refuseCall turn call step now code message
      cause) := by
  have hcalls := calls_refuseCall turn ((s.emit data).withCounts count steps) call step now code
    message cause
  refine ⟨fun hun => ?_, hlimit, ?_, ?_, hbelow, hdistinct, hwithin, ?_, ?_⟩
  · exact absurd (hstarted.symm.trans hun) (by decide)
  · rw [hcalls, List.countP_append]
    exact h.handed.trans hcount
  · rw [hcalls]
    intro c hc hhanded
    rcases List.mem_append.mp hc with hc | hc
    · exact h.offered c hc hhanded
    · rw [List.mem_singleton.mp hc] at hhanded
      cases hhanded
  · rw [hcalls]
    intro c hc hhanded n hn
    rcases List.mem_append.mp hc with hc | hc
    · exact hkept n (h.declared c hc hhanded n hn)
    · rw [List.mem_singleton.mp hc] at hhanded
      cases hhanded
  · rw [hcalls, entries_refuseCall, List.filterMap_append]
    exact congrArg (· ++ _) h.recorded

/-- A call is admitted: it is counted, its tool is offered and its step is within the budget. -/
theorem Budgeted.admitCall (h : Budgeted turn s) {steps : List ℕ}
    (hcount : s.ledger.toolCallCount < turn.maxToolCalls)
    (hoffered : call.tool ∈ s.effectiveTools.map ToolDefinition.name)
    (hsteps : StepsAfter turn s.ledger.steps step steps) (hstarted : s.pluginStarted = true)
    (data : ExecutionEventData) :
    Budgeted turn (((s.emit data).withCounts (s.ledger.toolCallCount + 1) steps).admitCall turn call
      step now) := by
  have hcalls := calls_admitCall turn
    ((s.emit data).withCounts (s.ledger.toolCallCount + 1) steps) call step now
  obtain ⟨hbelow, hdistinct, hwithin, hkept, hown⟩ := hsteps.budgeted h.below h.distinct h.within
  refine ⟨fun hun => ?_, hcount, ?_, ?_, hbelow, hdistinct, hwithin, ?_, ?_⟩
  · exact absurd (hstarted.symm.trans hun) (by decide)
  · rw [hcalls, List.countP_append]
    exact Nat.add_le_add h.handed (Nat.le_refl 1)
  · rw [hcalls]
    intro c hc hhanded
    rcases List.mem_append.mp hc with hc | hc
    · exact h.offered c hc hhanded
    · rw [List.mem_singleton.mp hc]
      exact hoffered
  · rw [hcalls]
    intro c hc hhanded n hn
    rcases List.mem_append.mp hc with hc | hc
    · exact hkept n (h.declared c hc hhanded n hn)
    · rw [List.mem_singleton.mp hc] at hn
      exact hown n hn
  · rw [hcalls, List.filterMap_append]
    exact h.recorded.trans (List.append_nil _).symm

theorem Budgeted.requested (h : Budgeted turn s) (hstarted : s.pluginStarted = true)
    (heffect : RequestEffect turn s call step now s') : Budgeted turn s' := by
  cases heffect with
  | @refused _ _ _ count _ hstopped hcount hsteps =>
      have hlimits := h.count
      have hle : s.ledger.toolCallCount ≤ count := by omega
      have hlimit : count ≤ turn.maxToolCalls := by omega
      rcases hsteps with rfl | hsteps
      · exact h.refuseCall hle hlimit h.below h.distinct h.within (fun _ hn => hn) hstarted ..
      · obtain ⟨hbelow, hdistinct, hwithin, hkept, -⟩ :=
          hsteps.budgeted h.below h.distinct h.within
        exact h.refuseCall hle hlimit hbelow hdistinct hwithin hkept hstarted ..
  | admitted hstopped hdraining hcount hoffered hsteps =>
      exact h.admitCall hcount hoffered hsteps hstarted _

/-- **Every step keeps the budgets.** -/
theorem executorStep_budgeted (h : Budgeted turn s) {label : TurnLabel}
    (hstep : executorStep turn s label = some s') : Budgeted turn s' := by
  cases executorStep_effect hstep with
  | body _ heffect => exact h.body heffect
  | silent hs => exact h.silent hs
  | neverBegan => exact h.same rfl rfl rfl rfl rfl fun _ => rfl
  | listed hphase =>
      -- nothing has been called before the tools are listed
      have hnone : s.ledger.calls = [] :=
        h.unstarted (by rw [TurnState.pluginStarted, hphase])
      refine ⟨fun hun => (by cases hun), h.count, h.handed, ?_, h.below, h.distinct, h.within,
        h.declared, h.recorded⟩
      show ∀ c ∈ s.ledger.calls, _
      rw [hnone]
      exact fun _ hc => absurd hc List.not_mem_nil
  | stated => exact h.same rfl rfl rfl rfl rfl id
  | requested _ hstarted _ _ heffect => exact h.requested hstarted heffect
  | call hi heffect =>
      cases heffect with
      | moved hs hmoves =>
          refine (h.silent hs).setCall (hs.calls ▸ hi) hmoves.call hmoves.step hmoves.handed
            hmoves.refusal
      | completed _ hstage =>
          refine Budgeted.setCall (h.same rfl rfl rfl rfl rfl id) hi rfl rfl rfl rfl

omit [HostPlatform] in
/-- What the budgets come to, over the calls that were handed over. -/
theorem Budgeted.spent (h : Budgeted turn s) : s.handedCalls.length ≤ turn.maxToolCalls ∧
    (∀ call ∈ s.handedCalls, call.tool ∈ s.effectiveTools.map ToolDefinition.name) ∧
    (∀ n ∈ s.handedSteps, n < turn.maxSteps) ∧ s.handedSteps.dedup.length ≤ turn.maxSteps := by
  have hsteps : ∀ n ∈ s.handedSteps, n ∈ s.ledger.steps := by
    intro n hn
    obtain ⟨c, hc, hstep⟩ := List.mem_filterMap.mp hn
    unfold MediatedCall.handedStep at hstep
    split at hstep
    · next hhanded => exact h.declared c hc hhanded n hstep
    · cases hstep
  refine ⟨?_, fun call hcall => ?_, fun n hn => h.below n (hsteps n hn), ?_⟩
  · have hlength : s.handedCalls.length = s.ledger.calls.countP MediatedCall.handed := by
      rw [TurnState.handedCalls, List.length_filterMap_eq_countP]
      refine List.countP_congr fun c _ => ?_
      unfold MediatedCall.handedCall
      split <;> simp_all
    rw [hlength]
    exact h.handed.trans h.count
  · obtain ⟨c, hc, hhandedCall⟩ := List.mem_filterMap.mp hcall
    unfold MediatedCall.handedCall at hhandedCall
    split at hhandedCall
    · next hhanded =>
        cases hhandedCall
        exact h.offered c hc hhanded
    · cases hhandedCall
  · have hsub : ∀ n ∈ s.handedSteps.dedup, n ∈ s.ledger.steps :=
      fun n hn => hsteps n (List.mem_dedup.mp hn)
    exact (List.subperm_of_subset (List.nodup_dedup _) hsub).length_le.trans h.within

/-! ## Once the turn takes nothing new -/

/-- The turn takes no new calls: its drain signal has fired, or it is closed. -/
def Shut (s : TurnState) : Prop := s.deadlines.draining = true ∨ s.phase = .closed

omit [HostPlatform] in
theorem Shut.silent (h : Shut s) (hs : Silent s s') : Shut s' := h.imp hs.draining hs.closed.mpr

omit [HostPlatform] in
theorem MediatedCall.Moves.handedCall (h : c.Moves c') : c'.handedCall = c.handedCall := by
  rw [MediatedCall.handedCall, MediatedCall.handedCall, h.handed, h.call]

omit [HostPlatform] in
theorem handedCalls_setCall (hi : s.ledger.calls[i]? = some c)
    (hcall : c'.handedCall = c.handedCall) : (s.setCall i c').handedCalls = s.handedCalls :=
  filterMap_set_same hi hcall

/-- **A turn that takes nothing new hands nothing over**, and stays so. -/
theorem executorStep_shut (h : Shut s) {label : TurnLabel}
    (hstep : executorStep turn s label = some s') :
    s'.handedCalls = s.handedCalls ∧ Shut s' := by
  have hsilent : ∀ {t : TurnState}, Silent s t → t.handedCalls = s.handedCalls ∧ Shut t :=
    fun hs => ⟨by rw [TurnState.handedCalls, hs.calls]; rfl, h.silent hs⟩
  cases executorStep_effect hstep with
  | body _ heffect =>
      cases heffect with
      | silent hs => exact hsilent hs
      | ended hs hends => exact ⟨(hsilent hs).1, .inr rfl⟩
  | silent hs => exact hsilent hs
  | neverBegan => exact ⟨rfl, .inr rfl⟩
  | listed hphase =>
      refine ⟨rfl, .inl (h.resolve_right ?_)⟩
      rw [hphase]
      exact nofun
  | stated => exact ⟨rfl, h⟩
  | requested hactive _ _ _ heffect =>
      cases heffect with
      | refused =>
          refine ⟨?_, h⟩
          rw [TurnState.handedCalls, calls_refuseCall, List.filterMap_append]
          exact List.append_nil _
      | admitted _ hdraining =>
          -- an admitted call is the one thing such a turn cannot take
          rcases h with h | h
          · rw [hdraining] at h
            cases h
          · simp [TurnState.hostActive, h] at hactive
  | call hi heffect =>
      cases heffect with
      | moved hs hmoves =>
          obtain ⟨hcalls, hshut⟩ := hsilent hs
          exact ⟨(handedCalls_setCall (hs.calls ▸ hi) hmoves.handedCall).trans hcalls, hshut⟩
      | completed _ hstage => exact ⟨handedCalls_setCall hi rfl, h⟩

/-! ## What stays -/

/-- The call is the same call, and a refusal stands. -/
structure MediatedCall.Continues (c c' : MediatedCall) : Prop where
  call : c'.call = c.call
  step : c'.step = c.step
  refused : ∀ result, c.stage = .refused result →
    c'.stage = .refused result ∧ (c'.answer = c.answer ∨ c'.answer = some (.ok result))

omit [HostPlatform] in
theorem MediatedCall.Continues.refl (c : MediatedCall) : c.Continues c :=
  ⟨rfl, rfl, fun _ hr => ⟨hr, .inl rfl⟩⟩

omit [HostPlatform] in
theorem MediatedCall.Continues.trans {c'' : MediatedCall} (h : c.Continues c')
    (h' : c'.Continues c'') : c.Continues c'' := by
  refine ⟨h'.call.trans h.call, h'.step.trans h.step, fun result hr => ?_⟩
  obtain ⟨hr', hanswer⟩ := h.refused result hr
  obtain ⟨hr'', hanswer'⟩ := h'.refused result hr'
  refine ⟨hr'', hanswer'.elim (fun heq => ?_) .inr⟩
  rw [heq]
  exact hanswer

/-- Nothing that was there is gone: the events are a prefix, and each call continues. -/
structure Grows (s s' : TurnState) : Prop where
  events : s.events <+: s'.events
  calls : ∀ (i : ℕ) (c : MediatedCall), s.ledger.calls[i]? = some c →
    ∃ c', s'.ledger.calls[i]? = some c' ∧ c.Continues c'

omit [HostPlatform] in
theorem Grows.refl (s : TurnState) : Grows s s :=
  ⟨List.prefix_refl _, fun _ c hi => ⟨c, hi, .refl c⟩⟩

omit [HostPlatform] in
theorem Grows.trans {s'' : TurnState} (h : Grows s s') (h' : Grows s' s'') : Grows s s'' where
  events := h.events.trans h'.events
  calls i c hi := by
    obtain ⟨c', hi', hc⟩ := h.calls i c hi
    obtain ⟨c'', hi'', hc'⟩ := h'.calls i c' hi'
    exact ⟨c'', hi'', hc.trans hc'⟩

omit [HostPlatform] in
/-- Events and calls are only appended. -/
theorem Grows.appended {events : List ExecutionEvent} {calls : List MediatedCall}
    (hevents : s'.events = s.events ++ events) (hcalls : s'.ledger.calls = s.ledger.calls ++ calls) :
    Grows s s' where
  events := hevents ▸ List.prefix_append _ _
  calls i c hi := by
    refine ⟨c, ?_, .refl c⟩
    rw [hcalls, List.getElem?_append_left (List.getElem?_eq_some_iff.mp hi).1]
    exact hi

omit [HostPlatform] in
theorem Grows.emit (s : TurnState) (data : ExecutionEventData) : Grows s (s.emit data) :=
  .appended rfl (List.append_nil _).symm

omit [HostPlatform] in
theorem Grows.setCall (hi : s.ledger.calls[i]? = some c) (hc : c.Continues c') :
    Grows s (s.setCall i c') where
  events := List.prefix_refl _
  calls j d hj := by
    show ∃ d', (s.ledger.calls.set i c')[j]? = some d' ∧ _
    by_cases hij : i = j
    · subst hij
      rw [hi] at hj
      cases hj
      exact ⟨c', List.getElem?_set_self (List.getElem?_eq_some_iff.mp hi).1, hc⟩
    · rw [List.getElem?_set_ne hij]
      exact ⟨d, hj, .refl d⟩

theorem executorStep_grows {label : TurnLabel} (hstep : executorStep turn s label = some s') :
    Grows s s' := by
  have hsilent : ∀ {t : TurnState}, Silent s t → Grows s t := fun hs =>
    @Grows.appended s _ [] [] (by rw [hs.events, List.append_nil])
      (by rw [hs.calls, List.append_nil])
  cases executorStep_effect hstep with
  | body _ heffect =>
      cases heffect with
      | silent hs => exact hsilent hs
      | ended hs hends =>
          exact (hsilent hs).trans ((Grows.emit _ _).trans (.appended (List.append_nil _).symm
            (List.append_nil _).symm))
  | silent hs => exact hsilent hs
  | neverBegan => exact .appended (List.append_nil _).symm (List.append_nil _).symm
  | listed => exact .appended rfl (List.append_nil _).symm
  | stated => exact .emit s _
  | requested _ _ _ _ heffect =>
      cases heffect with
      | refused => exact .appended (List.append_assoc ..) (calls_refuseCall ..)
      | admitted => exact .appended rfl (calls_admitCall ..)
  | call hi heffect =>
      cases heffect with
      | moved hs hmoves =>
          exact (hsilent hs).trans
            (.setCall (hs.calls ▸ hi) ⟨hmoves.call, hmoves.step, hmoves.refused⟩)
      | completed _ hstage =>
          refine (Grows.emit s _).trans (.setCall hi ⟨rfl, rfl, fun result hr => ?_⟩)
          rw [hstage] at hr
          cases hr

theorem run_grows {labels : List TurnLabel} (h : run (executorStep turn) s labels = some s') :
    Grows s s' :=
  run_invariant (fun _ _ _ hgrows hstep => hgrows.trans (executorStep_grows hstep)) (.refl s) h

/-! ## The envelope -/

/-- A call that a rule stopped, as it stands: denied under the rule's code, with the two events it
left from position `k` on. Where it is not answered yet, it may be. -/
def StandsRefused (turn : Turn) (s : TurnState) (i k : ℕ) (call : ToolCall) (step : Option ℕ)
    (code : JsString) : Prop :=
  ∃ c result, s.ledger.calls[i]? = some c ∧ c.call = call ∧ c.handed = false ∧
    result.callId = call.id ∧ result.status = .denied ∧ result.errorCode = some code ∧
    (c.answer = some (.ok result) ∨ c.answer = none ∧ ∃ s' c',
      executorStep turn s (.call i .delivers) = some s' ∧ s'.ledger.calls[i]? = some c' ∧
      c'.answer = some (.ok result)) ∧
    (s.events[k]?).map ExecutionEvent.data = some (.toolRequested call.id call.tool step) ∧
    (s.events[k + 1]?).map ExecutionEvent.data =
      some (.toolCompleted call.id .denied call.tool step (some code))

/-- The budgets and the gate, of a state of the turn. -/
structure EnvelopeHolds (turn : Turn) (s : TurnState) : Prop where
  calls : s.handedCalls.length ≤ turn.maxToolCalls
  offered : ∀ call ∈ s.handedCalls, call.tool ∈ s.effectiveTools.map ToolDefinition.name
  steps : ∀ n ∈ s.handedSteps, n < turn.maxSteps
  distinctSteps : s.handedSteps.dedup.length ≤ turn.maxSteps
  shut : Shut s → ∀ labels s', run (executorStep turn) s labels = some s' →
    s'.handedCalls = s.handedCalls
  /-- One attempt to record it for each refused call, in their order. -/
  recorded : s.refusals.map RefusedCall.entry = s.ledger.calls.filterMap MediatedCall.refusal
  stopped : ∀ candidate declared now call step code s₁, s.pluginStarted = true →
    s.hostActive = true → toolCallSchema candidate = some call →
    parseRuntimeStep declared = some step → stoppedBy turn s call step = some code →
    executorStep turn s (.invoke candidate declared now) = some s₁ →
      s₁.refusals.map RefusedCall.entry =
        s.refusals.map RefusedCall.entry ++ [(call.id, call.tool, code)] ∧
      ∀ labels s', run (executorStep turn) s₁ labels = some s' →
        StandsRefused turn s' s.ledger.calls.length s.events.length call step code

omit [HostPlatform] in
theorem MediatedCall.not_handed {result : ToolResult} (h : c.stage = .refused result) :
    c.handed = false := by rw [MediatedCall.handed, h]

/-- What was refused stands refused in every later state. -/
theorem Grows.standsRefused (hgrows : Grows s s') {k : ℕ} {code message : JsString}
    (hi : s.ledger.calls[i]? = some (refusedCall turn call step now code message))
    (hrequested : (s.events[k]?).map ExecutionEvent.data =
      some (.toolRequested call.id call.tool step))
    (hcompleted : (s.events[k + 1]?).map ExecutionEvent.data =
      some (.toolCompleted call.id .denied call.tool step (some code))) :
    StandsRefused turn s' i k call step code := by
  have hkept : ∀ {j : ℕ} {data : ExecutionEventData},
      (s.events[j]?).map ExecutionEvent.data = some data →
      (s'.events[j]?).map ExecutionEvent.data = some data := by
    intro j data hj
    obtain ⟨e, he, hdata⟩ := Option.map_eq_some_iff.mp hj
    rw [List.prefix_iff_getElem?.mp hgrows.events j (List.getElem?_eq_some_iff.mp he).1,
      (List.getElem?_eq_some_iff.mp he).2]
    exact congrArg some hdata
  obtain ⟨c', hi', hcontinues⟩ := hgrows.calls i _ hi
  obtain ⟨hstage, hanswer⟩ := hcontinues.refused _ rfl
  refine ⟨c', envelopeRefusal call now code message, hi', hcontinues.call,
    MediatedCall.not_handed hstage, rfl, rfl, rfl, ?_, hkept hrequested, hkept hcompleted⟩
  rcases hanswer with hnone | hsome
  · refine .inr ⟨hnone, s'.setCall i { c' with answer := some (.ok _) }, _, ?_,
      List.getElem?_set_self (List.getElem?_eq_some_iff.mp hi').1, rfl⟩
    show (s'.ledger.calls[i]?).bind _ = _
    rw [hi']
    show s'.deliver i c' = _
    rw [TurnState.deliver, hstage, hnone]
    rfl
  · exact .inl hsome

/-- **The envelope holds from outside the plugin**, in every state of every run. -/
theorem envelope_holds {turn : Turn} {labels : List TurnLabel} {s : TurnState}
    (hrun : run (executorStep turn) (.initial turn) labels = some s) : EnvelopeHolds turn s := by
  have hbudgeted : Budgeted turn s :=
    run_invariant (fun _ _ _ h hstep => executorStep_budgeted h hstep) (budgeted_initial turn) hrun
  obtain ⟨hcalls, hoffered, hsteps, hdistinct⟩ := hbudgeted.spent
  refine ⟨hcalls, hoffered, hsteps, hdistinct, fun hshut later s' hlater => ?_,
    hbudgeted.recorded, ?_⟩
  -- shut once, shut for good: what was handed over is a constant of the rest of the run
  · have hstays : s'.handedCalls = s.handedCalls ∧ Shut s' := by
      refine run_invariant (I := fun t => t.handedCalls = s.handedCalls ∧ Shut t) ?_ ⟨rfl, hshut⟩
        hlater
      intro t label t' ⟨hsame, ht⟩ hstep
      obtain ⟨hsame', ht'⟩ := executorStep_shut ht hstep
      exact ⟨hsame'.trans hsame, ht'⟩
    exact hstays.1
  · intro candidate declared now call step code s₁ hstarted hactive hcall hstep hstopped htaken
    have hmediated : s₁ = s.requestTool turn call step now := by
      have htaken' : s.mediateTool turn candidate declared now = s₁ := by
        simpa [executorStep, hstarted] using htaken
      rw [← htaken', TurnState.mediateTool, hactive, hcall, hstep]
      rfl
    have heffect := @requestTool_effect turn s call step now _
    rw [← hmediated] at heffect
    -- the call was stopped by a rule, so it was not admitted
    cases heffect with
    | admitted hadmitted =>
        rw [hstopped] at hadmitted
        cases hadmitted
    | @refused code' message cause count steps hrefused =>
        obtain rfl : code = code' := Option.some.inj (hstopped.symm.trans hrefused)
        refine ⟨entries_refuseCall .., fun later s' hlater => ?_⟩
        have hevents := events_refuseCall turn
          ((s.emit (.toolRequested call.id call.tool step)).withCounts count steps) call step now code
          message cause
        refine @Grows.standsRefused turn _ _ _ _ call step now (run_grows hlater)
          s.events.length code message ?_ ?_ ?_
        · rw [calls_refuseCall]
          exact List.getElem?_concat_length
        · rw [hevents]
          simp [TurnState.withCounts, TurnState.emit]
        · rw [hevents]
          simp [TurnState.withCounts, TurnState.emit]
          rfl

end Invariant

namespace Sample

/-- A turn whose plugin guesses a name that is not offered. -/
def guessedCall : List TurnLabel :=
  [.start none, .opened (.ok ()), .admitted (.ok none), .reached (.ok ()),
    .listed (.ok fun _ => true),
    .invoke { Kernel.Sample.call with tool := "guessed" } (some 0) "2026-03-01T00:00:00Z"]

end Sample

open scoped SharedOS.Foundation.Reference in
theorem envelope_holds_guessed :
    ∃ s, run (executorStep (Sample.turn Kernel.Sample.reader))
        (.initial (Sample.turn Kernel.Sample.reader)) Sample.guessedCall = some s ∧
      s.refusals.map RefusedCall.reasonCode = ["tool_unavailable"] ∧
      EnvelopeHolds (Sample.turn Kernel.Sample.reader) s :=
  ⟨_, rfl, rfl, @envelope_holds _ _ Sample.guessedCall _ rfl⟩

end SharedOS.Runtime
