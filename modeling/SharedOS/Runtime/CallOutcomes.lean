/-
SharedOS.Runtime.CallOutcomes — what the plugin is handed is what the event stream says.

A call has an outcome from the moment its `tool.completed` is left behind. The completions of the
stream are, one for one, the outcomes of the calls (`Outcomes`), and an outcome is final. While the
turn is active, its sink accepts every write and its clock reads timestamps, no call comes back as
anything but a result (`Unfailing`), and a call that is out comes back (`call_completes`).
-/
import SharedOS.Kernel.Completion
import SharedOS.Runtime.EventLog

namespace SharedOS.Runtime

open SharedOS.Foundation SharedOS.Contracts SharedOS.Core SharedOS.Kernel

/-! ## Outcomes -/

/-- The result a call has been completed with. -/
def MediatedCall.outcome (c : MediatedCall) : Option ToolResult :=
  match c.stage with
  | .refused result => some result
  | .withKernel _ | .watched .. | .accounted _ => c.answer.bind Except.toOption

theorem MediatedCall.refused_of_not_handed {c : MediatedCall} (hc : ¬ c.handed = true) :
    ∃ result, c.stage = .refused result := by
  by_contra hnone
  exact hc (MediatedCall.handed_iff.mpr fun result hr => hnone ⟨result, hr⟩)

/-- What the event stream says of a call that has an outcome. -/
def MediatedCall.completion (c : MediatedCall) : Option ExecutionEventData :=
  c.outcome.map fun result => TurnState.completed result c.step

/-- What an event says of a call that completes. -/
def completionOf (e : ExecutionEvent) : Option ExecutionEventData :=
  match e.data with
  | .toolCompleted callId status tool step code => some (.toolCompleted callId status tool step code)
  | _ => none

/-- The completions recorded are the outcomes of the calls. -/
def Outcomes (s : TurnState) : Prop :=
  (s.events.filterMap completionOf).Perm (s.ledger.calls.filterMap MediatedCall.completion)

theorem EndsWith.completionOf {data : ExecutionEventData} {ending : TurnEnding}
    (h : EndsWith data ending) (k : ℕ) : completionOf (ExecutionEvent.mk k data) = none := by
  cases h <;> rfl

section Outcomes

variable [HostPlatform] {turn : Turn} {s s' : TurnState} {c c' : MediatedCall} {i : ℕ}

omit [HostPlatform] in
theorem Outcomes.silent (h : Outcomes s) (hs : Silent s s') : Outcomes s' := by
  unfold Outcomes
  rw [hs.events, hs.calls]
  exact h

omit [HostPlatform] in
/-- An event that says nothing of a call that completes. -/
theorem Outcomes.emit (h : Outcomes s) {data : ExecutionEventData}
    (hdata : completionOf (ExecutionEvent.mk s.events.length data) = none) :
    Outcomes (s.emit data) := by
  show ((s.events ++ [_]).filterMap completionOf).Perm
    (s.ledger.calls.filterMap MediatedCall.completion)
  rw [List.filterMap_append, List.filterMap_cons_none hdata, List.filterMap_nil, List.append_nil]
  exact h

omit [HostPlatform] in
/-- A call that is asked for has no outcome yet. -/
theorem Outcomes.asked (h : Outcomes s) {id tool : JsString} {step : Option ℕ} {count : ℕ}
    {steps : List ℕ} :
    Outcomes ((s.emit (.toolRequested id tool step)).withCounts count steps) := h.emit rfl

omit [HostPlatform] in
theorem Outcomes.refuseCall (h : Outcomes s) {call : ToolCall} {step : Option ℕ}
    {now code message : JsString} {cause : Option JsString} :
    Outcomes (s.refuseCall turn call step now code message cause) := by
  unfold Outcomes
  rw [events_refuseCall, calls_refuseCall, List.filterMap_append, List.filterMap_append]
  exact h.append_right _

theorem Outcomes.admitCall (h : Outcomes s) {call : ToolCall} {step : Option ℕ}
    {now : JsString} : Outcomes (s.admitCall turn call step now) := by
  unfold Outcomes
  rw [calls_admitCall, List.filterMap_append]
  exact h.trans (.of_eq (List.append_nil _).symm)

omit [HostPlatform] in
theorem getElem?_setCall (hi : s.ledger.calls[i]? = some c) {s₁ : TurnState}
    (hcalls : s₁.ledger.calls = s.ledger.calls) :
    (s₁.setCall i c').ledger.calls[i]? = some c' := by
  show (s₁.ledger.calls.set i c')[i]? = some c'
  rw [hcalls]
  exact List.getElem?_set_self (List.getElem?_eq_some_iff.mp hi).1

/-- An answer a call has been given is final. -/
theorem callStep_answered {event : CallEvent} {result : ToolResult}
    (hi : s.ledger.calls[i]? = some c) (h : callStep turn s i c event = some s')
    (hanswer : c.answer = some (.ok result)) :
    ∃ c', s'.ledger.calls[i]? = some c' ∧ c'.answer = some (.ok result) := by
  have hlt : i < s.ledger.calls.length := (List.getElem?_eq_some_iff.mp hi).1
  have hset : ∀ (t : TurnState) (d : MediatedCall), t.ledger.calls = s.ledger.calls →
      d.answer = some (.ok result) →
      ∃ c', (t.setCall i d).ledger.calls[i]? = some c' ∧ c'.answer = some (.ok result) := by
    intro t d hcalls hd
    refine ⟨d, ?_, hd⟩
    show (t.ledger.calls.set i d)[i]? = some d
    rw [hcalls, List.getElem?_set_self hlt]
  cases event with
  | kernelAnswers surroundings =>
      unfold callStep TurnState.kernelAnswers at h
      dsimp only at h
      split at h
      · cases h
        exact hset s _ rfl hanswer
      · cases h
  | kernelSettles =>
      unfold callStep TurnState.kernelSettles at h
      dsimp only at h
      split at h
      · cases h
        exact hset s _ rfl hanswer
      · cases h
        refine hset (s.watchAudit _) _ ?_ hanswer
        exact (Silent.watchAudit s _).calls
      · cases h
  | accounts =>
      unfold callStep TurnState.accountFor at h
      dsimp only at h
      split at h
      · cases h
        exact hset (s.settleWrite c _) _ rfl hanswer
      · cases h
        refine hset _ _ ?_ hanswer
        split <;> rfl
      · cases h
  | delivers =>
      unfold callStep TurnState.deliver at h
      rw [hanswer] at h
      dsimp only at h
      split at h
      · next hnone => cases hnone
      · next hnone => cases hnone
      · next hnone => cases hnone
      · cases h
  | abandons =>
      unfold callStep TurnState.abandon at h
      rw [hanswer] at h
      dsimp only at h
      split at h
      · cases h
      · next hnone haborted _ => exact absurd hnone nofun
      · cases h

omit [HostPlatform] in
theorem MediatedCall.outcome_of_handed (hc : c.handed = true) :
    c.outcome = c.answer.bind Except.toOption := by
  unfold MediatedCall.outcome
  cases hstage : c.stage with
  | refused result => exact absurd hstage (MediatedCall.handed_iff.mp hc result)
  | withKernel rest => rfl
  | watched settled isOutage => rfl
  | accounted settled => rfl

omit [HostPlatform] in
theorem MediatedCall.isCompleted_of_handed (hc : c.handed = true) :
    c.isCompleted = c.outcome.isSome := by
  rw [c.outcome_of_handed hc, MediatedCall.isCompleted, hc]
  cases c.answer with
  | none => rfl
  | some settled => cases settled <;> rfl

/-- A call that moves keeps its outcome, and comes to none. -/
theorem outcome_moved {event : CallEvent} {s₁ : TurnState} (hi : s.ledger.calls[i]? = some c)
    (h : callStep turn s i c event = some (s₁.setCall i c')) (hs : Silent s s₁)
    (hmoves : c.Moves c') : c'.outcome = c.outcome := by
  by_cases hc : c.handed = true
  · have hc' : c'.handed = true := hmoves.handed.trans hc
    have hsame : c'.outcome.isSome = c.outcome.isSome := by
      rw [← c'.isCompleted_of_handed hc', ← c.isCompleted_of_handed hc]
      exact hmoves.isCompleted
    cases hbefore : c.outcome with
    | none =>
        rw [hbefore] at hsame
        exact Option.isSome_eq_false_iff.mp hsame |> Option.isNone_iff_eq_none.mp
    | some result =>
        have hanswer : c.answer = some (.ok result) := by
          rw [c.outcome_of_handed hc] at hbefore
          obtain ⟨settled, hsettled, hok⟩ := Option.bind_eq_some_iff.mp hbefore
          cases settled with
          | error thrown => cases hok
          | ok value =>
              cases hok
              exact hsettled
        obtain ⟨d, hd, hkept⟩ := callStep_answered hi h hanswer
        have hlt : i < s.ledger.calls.length := (List.getElem?_eq_some_iff.mp hi).1
        have hself : (s₁.ledger.calls.set i c')[i]? = some d := hd
        rw [hs.calls, List.getElem?_set_self hlt] at hself
        cases hself
        rw [c'.outcome_of_handed hc', hkept]
        rfl
  · obtain ⟨result, hstage⟩ := MediatedCall.refused_of_not_handed hc
    rw [MediatedCall.outcome, MediatedCall.outcome, (hmoves.refused result hstage).1, hstage]

theorem Outcomes.moved (h : Outcomes s) {event : CallEvent} {s₁ : TurnState}
    (hi : s.ledger.calls[i]? = some c)
    (hcall : callStep turn s i c event = some (s₁.setCall i c')) (hs : Silent s s₁)
    (hmoves : c.Moves c') : Outcomes (s₁.setCall i c') := by
  have hcompletion : c'.completion = c.completion := by
    unfold MediatedCall.completion
    rw [outcome_moved hi hcall hs hmoves, hmoves.step]
  show (s₁.events.filterMap completionOf).Perm
    ((s₁.ledger.calls.set i c').filterMap MediatedCall.completion)
  rw [hs.events, hs.calls, filterMap_set_same hi hcompletion]
  exact h

omit [HostPlatform] in
/-- A call comes to its outcome, and the stream says so. -/
theorem Outcomes.completes (h : Outcomes s) (hi : s.ledger.calls[i]? = some c)
    {candidate result : ToolResult} (hstage : c.stage = .accounted (.ok candidate))
    (hanswer : c.answer = none) :
    Outcomes ((s.emit (TurnState.completed result c.step)).setCall i
      { c with answer := some (.ok result) }) := by
  have hbefore : c.completion = none := by
    unfold MediatedCall.completion MediatedCall.outcome
    rw [hstage, hanswer]
    rfl
  have hafter : MediatedCall.completion { c with answer := some (.ok result) } =
      some (TurnState.completed result c.step) := by
    unfold MediatedCall.completion MediatedCall.outcome
    rw [hstage]
    rfl
  refine List.Perm.trans ?_ (filterMap_set_perm hi hbefore hafter).symm
  show ((s.events ++ [_]).filterMap completionOf).Perm _
  rw [List.filterMap_append]
  exact h.append_right _

/-- **Every step keeps the completions and the outcomes together.** -/
theorem executorStep_outcomes {label : TurnLabel} (h : Outcomes s)
    (hstep : executorStep turn s label = some s') : Outcomes s' := by
  have hended : ∀ {t : TurnState} {data : ExecutionEventData} {ending : TurnEnding}, Silent s t →
      EndsWith data ending → Outcomes ((t.emit data).endTurn turn ending) := fun ht hends =>
    (h.silent ht).emit (hends.completionOf _)
  have heffect := executorStep_effect hstep
  cases heffect with
  | body hopen heffect =>
      cases heffect with
      | silent hs => exact h.silent hs
      | ended hs hends => exact hended hs hends
  | silent hs => exact h.silent hs
  | neverBegan hphase => exact h
  | listed hphase => exact Outcomes.emit (s := { s with phase := .running, effectiveTools := _ }) h rfl
  | stated hactive => exact h.emit rfl
  | requested hactive _ hcall _ heffect =>
      cases heffect with
      | refused => exact h.asked.refuseCall
      | admitted => exact h.asked.admitCall
  | call hi heffect =>
      obtain ⟨d, hd, hcall⟩ := Option.bind_eq_some_iff.mp hstep
      obtain rfl := Option.some.inj (hi.symm.trans hd)
      cases heffect with
      | moved hs hmoves => exact h.moved hi hcall hs hmoves
      | completed hactive hstage hanswer hparse => exact h.completes hi hstage hanswer

/-! ## The calls there are -/

/-- What was asked for stays what it is, in its place, and an answer is final. -/
def CallsKept (s s' : TurnState) : Prop :=
  ∀ (i : ℕ) (c : MediatedCall), s.ledger.calls[i]? = some c →
    ∃ c', s'.ledger.calls[i]? = some c' ∧ c'.call = c.call ∧ c'.step = c.step ∧
      ∀ result, c.answer = some (.ok result) → c'.answer = some (.ok result)

omit [HostPlatform] in
theorem CallsKept.append {calls : List MediatedCall}
    (h : s'.ledger.calls = s.ledger.calls ++ calls) : CallsKept s s' := by
  intro i c hi
  have hlt : i < s.ledger.calls.length := (List.getElem?_eq_some_iff.mp hi).1
  refine ⟨c, ?_, rfl, rfl, fun _ hanswer => hanswer⟩
  rw [h, List.getElem?_append_left hlt, hi]

omit [HostPlatform] in
theorem CallsKept.of_eq (h : s'.ledger.calls = s.ledger.calls) : CallsKept s s' :=
  .append (h.trans (List.append_nil _).symm)

omit [HostPlatform] in
theorem CallsKept.set {s₁ : TurnState} (hi : s.ledger.calls[i]? = some c)
    (hcalls : s₁.ledger.calls = s.ledger.calls) (hcall : c'.call = c.call) (hstep : c'.step = c.step)
    (hanswer : ∀ result, c.answer = some (.ok result) → c'.answer = some (.ok result)) :
    CallsKept s (s₁.setCall i c') := by
  intro j d hj
  show ∃ d', (s₁.ledger.calls.set i c')[j]? = some d' ∧ _
  rw [hcalls]
  by_cases hij : j = i
  · subst hij
    cases hi.symm.trans hj
    exact ⟨c', List.getElem?_set_self (List.getElem?_eq_some_iff.mp hi).1, hcall, hstep, hanswer⟩
  · exact ⟨d, by rw [List.getElem?_set_ne (Ne.symm hij), hj], rfl, rfl, fun _ h => h⟩

theorem executorStep_kept {label : TurnLabel} (hstep : executorStep turn s label = some s') :
    CallsKept s s' := by
  have heffect := executorStep_effect hstep
  cases heffect with
  | body hopen heffect =>
      cases heffect with
      | silent hs => exact .of_eq hs.calls
      | ended hs hends => exact .of_eq hs.calls
  | silent hs => exact .of_eq hs.calls
  | neverBegan hphase => exact .of_eq rfl
  | listed hphase => exact .of_eq rfl
  | stated hactive => exact .of_eq rfl
  | requested hactive _ hcall _ heffect =>
      cases heffect with
      | refused => exact .append (calls_refuseCall ..)
      | admitted => exact .append (calls_admitCall ..)
  | call hi heffect =>
      obtain ⟨d, hd, hcall⟩ := Option.bind_eq_some_iff.mp hstep
      obtain rfl := Option.some.inj (hi.symm.trans hd)
      cases heffect with
      | moved hs hmoves =>
          refine .set hi hs.calls hmoves.call hmoves.step fun result hanswer => ?_
          obtain ⟨c', hc', hkept⟩ := callStep_answered hi hcall hanswer
          cases (getElem?_setCall hi hs.calls).symm.trans hc'
          exact hkept
      | completed hactive hstage hanswer hparse =>
          refine .set hi rfl rfl rfl fun result hbefore => ?_
          rw [hanswer] at hbefore
          cases hbefore

end Outcomes

/-! ## What the turn offers -/

section Offered

variable [HostPlatform] {turn : Turn} {s s' : TurnState}

/-- The effective tools are some of the catalogue's, in its order. -/
theorem executorStep_offered {label : TurnLabel}
    (h : s.effectiveTools.Sublist turn.catalogue.definitions)
    (hstep : executorStep turn s label = some s') :
    s'.effectiveTools.Sublist turn.catalogue.definitions := by
  have hsame : ∀ {t : TurnState}, t.effectiveTools = s.effectiveTools →
      t.effectiveTools.Sublist turn.catalogue.definitions :=
    fun htools => htools ▸ h
  cases executorStep_effect hstep with
  | body hopen heffect =>
      cases heffect with
      | silent hs => exact hsame hs.effectiveTools
      | ended hs hends => exact hsame hs.effectiveTools
  | silent hs => exact hsame hs.effectiveTools
  | neverBegan hphase => exact h
  | listed hphase => exact List.filter_sublist.trans List.filter_sublist
  | stated hactive => exact h
  | requested hactive _ hcall _ heffect =>
      cases heffect with
      | refused => exact h
      | admitted => exact h
  | call hi heffect =>
      cases heffect with
      | moved hs hmoves => exact hsame hs.effectiveTools
      | completed hactive hstage hanswer hparse => exact h

/-- A plugin that has its host keeps it. -/
theorem executorStep_started {label : TurnLabel} (h : s.pluginStarted = true)
    (hstep : executorStep turn s label = some s') : s'.pluginStarted = true := by
  cases executorStep_effect hstep with
  | body hopen heffect =>
      cases heffect with
      | silent hs => exact hs.started h
      | ended hs hends => rfl
  | silent hs => exact hs.started h
  | neverBegan hphase => rfl
  | listed hphase => rfl
  | stated hactive => exact h
  | requested hactive _ hcall _ heffect =>
      cases heffect with
      | refused => exact h
      | admitted => exact h
  | call hi heffect =>
      cases heffect with
      | moved hs hmoves => exact hs.started h
      | completed hactive hstage hanswer hparse => exact h

end Offered

/-! ## What the plugin is handed -/

/-- A refused call is handed back nothing but its refusal. -/
def MediatedCall.HandedOver (c : MediatedCall) : Prop :=
  ∀ result, c.stage = .refused result → c.answer = none ∨ c.answer = some (.ok result)

/-- What the plugin is handed is the outcome. -/
theorem MediatedCall.HandedOver.outcome {c : MediatedCall} (h : c.HandedOver) {result : ToolResult}
    (hanswer : c.answer = some (.ok result)) : c.outcome = some result := by
  by_cases hc : c.handed = true
  · rw [c.outcome_of_handed hc, hanswer]
    rfl
  · obtain ⟨refusal, hstage⟩ := MediatedCall.refused_of_not_handed hc
    rcases h refusal hstage with hanswer' | hanswer'
    · rw [hanswer] at hanswer'
      cases hanswer'
    · rw [hanswer] at hanswer'
      cases hanswer'
      rw [MediatedCall.outcome, hstage]

theorem MediatedCall.HandedOver.moves {c c' : MediatedCall} (h : c.HandedOver)
    (hmoves : c.Moves c') : c'.HandedOver := by
  intro result hresult
  have hc : ¬ c.handed = true := by
    rw [← hmoves.handed]
    exact fun hhanded => MediatedCall.handed_iff.mp hhanded result hresult
  obtain ⟨refusal, hstage⟩ := MediatedCall.refused_of_not_handed hc
  obtain ⟨hstage', hanswer⟩ := hmoves.refused refusal hstage
  cases hstage'.symm.trans hresult
  rcases hanswer with hsame | hback
  · rw [hsame]
    exact h _ hstage
  · exact .inr hback

section Requests

variable [HostPlatform] {turn : Turn} {s s' : TurnState} {call : ToolCall} {step : Option ℕ}
  {now : JsString}

/-- **A call that parses is one call more**, refused or not. -/
theorem requestTool_adds (turn : Turn) (s : TurnState) (call : ToolCall) (step : Option ℕ)
    (now : JsString) :
    (s.requestTool turn call step now).hostActive = s.hostActive ∧
      ∃ c : MediatedCall, (s.requestTool turn call step now).ledger.calls = s.ledger.calls ++ [c] ∧
        c.call = call ∧ c.step = step := by
  have heffect : RequestEffect turn s call step now (s.requestTool turn call step now) :=
    requestTool_effect
  revert heffect
  generalize s.requestTool turn call step now = s'
  intro heffect
  cases heffect with
  | refused => exact ⟨rfl, _, calls_refuseCall .., rfl, rfl⟩
  | admitted => exact ⟨rfl, _, calls_admitCall .., rfl, rfl⟩

/-- **Every step keeps it.** -/
theorem executorStep_handedOver {label : TurnLabel} (h : ∀ c ∈ s.ledger.calls, c.HandedOver)
    (hstep : executorStep turn s label = some s') : ∀ c ∈ s'.ledger.calls, c.HandedOver := by
  have hsame : ∀ {t : TurnState}, t.ledger.calls = s.ledger.calls →
      ∀ c ∈ t.ledger.calls, c.HandedOver := fun hcalls => hcalls ▸ h
  have hadd : ∀ {t : TurnState} {d : MediatedCall}, t.ledger.calls = s.ledger.calls ++ [d] →
      d.answer = none → ∀ c ∈ t.ledger.calls, c.HandedOver := by
    intro t d hcalls hd c hc
    rw [hcalls] at hc
    rcases List.mem_append.mp hc with hc | hc
    · exact h c hc
    · rw [List.mem_singleton.mp hc]
      exact fun _ _ => .inl hd
  cases executorStep_effect hstep with
  | body hopen heffect =>
      cases heffect with
      | silent hs => exact hsame hs.calls
      | ended hs hends => exact hsame hs.calls
  | silent hs => exact hsame hs.calls
  | neverBegan hphase => exact h
  | listed hphase => exact h
  | stated hactive => exact h
  | requested hactive _ hcall _ heffect =>
      cases heffect with
      | refused => exact hadd (calls_refuseCall ..) rfl
      | admitted => exact hadd (calls_admitCall ..) rfl
  | call hi heffect =>
      cases heffect with
      | @moved s₁ c' hs hmoves =>
          intro d hd
          rcases List.mem_or_eq_of_mem_set hd with hd | rfl
          · exact hsame hs.calls d hd
          · exact (h _ (List.mem_of_getElem? hi)).moves hmoves
      | completed hactive hstage hanswer hparse =>
          intro d hd
          rcases List.mem_or_eq_of_mem_set hd with hd | rfl
          · exact h d hd
          · intro result hrefused
            cases hstage.symm.trans hrefused

end Requests

/-! ## Nothing fails -/

/-- The sink accepts every write, and no handler throws an audit outage. -/
structure Accepts (surroundings : (o : KernelOp) → o.Answer) : Prop where
  record : ∀ event, surroundings (.record event) = .fulfilled ()
  handler : ∀ handler context call,
    surroundings (.invokeHandler handler context call) ≠ .threwAuditUnavailable

/-- No stage the kernel could have thrown into. -/
def CallStage.Unfailing [HostPlatform] : CallStage → Prop
  | .refused _ => True
  | .withKernel rest => Completing WellFormed rest
  | .watched (.ok result) _ | .accounted (.ok result) => WellFormed result
  | .watched (.error _) _ | .accounted (.error _) => False

/-- The call is not answered with a throw, and will not be. -/
structure MediatedCall.Unfailing [HostPlatform] (c : MediatedCall) : Prop where
  stage : c.stage.Unfailing
  answer : ∀ thrown, c.answer ≠ some (.error thrown)

section Unfailing

variable [HostPlatform] {turn : Turn} {s s' : TurnState} {c c' : MediatedCall} {i : ℕ}

/-- The sink accepts, and the clock reads timestamps. -/
def Untroubled : TurnLabel → Prop
  | .call _ (.kernelAnswers surroundings) => Accepts surroundings
  | .invoke _ _ now => timestampSchema now = some now
  | _ => True

omit [HostPlatform] in
theorem TurnState.hostActive.unaborted (h : s.hostActive = true) : s.deadlines.aborted = none := by
  simp only [TurnState.hostActive, Bool.and_eq_true, decide_eq_true_eq] at h
  exact Option.isNone_iff_eq_none.mp h.2

omit [HostPlatform] in
/-- While the turn is active, what its kernel operations are answered interrupts none of them. -/
theorem accepting_answerOf (hactive : s.hostActive = true)
    {surroundings : (o : KernelOp) → o.Answer} (h : Accepts surroundings) (o : KernelOp) :
    Accepting ⟨o, s.answerOf turn surroundings o⟩ := by
  cases o with
  | signalAborted =>
      show s.deadlines.aborted.isSome = false
      rw [TurnState.hostActive.unaborted hactive]
      rfl
  | record event => exact h.record event
  | invokeHandler handler context call => exact h.handler handler context call
  | _ => trivial

theorem callStep_unfailing (hactive : s.hostActive = true) {event : CallEvent}
    (hevent : Untroubled (.call i event)) (hc : c.Unfailing)
    (h : callStep turn s i c event = some s') :
    ∃ (s₁ : TurnState) (c' : MediatedCall), s' = s₁.setCall i c' ∧
      s₁.ledger.calls = s.ledger.calls ∧ s₁.hostActive = true ∧ c'.Unfailing := by
  have hstage := hc.stage
  cases event with
  | kernelAnswers surroundings =>
      unfold callStep TurnState.kernelAnswers at h
      dsimp only at h
      split at h
      · next o next hrest =>
          rw [hrest] at hstage
          cases h
          exact ⟨s, _, rfl, rfl, hactive, hstage _ (accepting_answerOf hactive hevent o), hc.answer⟩
      · cases h
  | kernelSettles =>
      unfold callStep TurnState.kernelSettles at h
      dsimp only at h
      split at h
      · next result hrest =>
          rw [hrest] at hstage
          cases h
          exact ⟨s, _, rfl, rfl, hactive, hstage, hc.answer⟩
      · next e hrest =>
          rw [hrest] at hstage
          -- a kernel operation among answering ports does not throw
          exact hstage.elim
      · cases h
  | accounts =>
      unfold callStep TurnState.accountFor at h
      dsimp only at h
      split at h
      · next result isOutage hrest =>
          rw [hrest] at hstage
          cases h
          exact ⟨s.settleWrite c _, _, rfl, rfl, hactive, hstage, hc.answer⟩
      · next thrown isOutage hrest =>
          rw [hrest] at hstage
          exact hstage.elim
      · cases h
  | delivers =>
      unfold callStep TurnState.deliver at h
      dsimp only at h
      split at h
      · next candidate hrest hanswer =>
          rw [hrest] at hstage
          -- what the kernel answers with, the schema accepts as it is
          rw [show toolResultSchema candidate = some candidate from hstage] at h
          dsimp only at h
          rw [hactive] at h
          cases h
          exact ⟨s.emit _, _, rfl, rfl, hactive, hrest ▸ hstage, nofun⟩
      · next thrown hrest hanswer =>
          rw [hrest] at hstage
          exact hstage.elim
      · cases h
        exact ⟨s, _, rfl, rfl, hactive, hc.stage, nofun⟩
      · cases h
  | abandons =>
      unfold callStep TurnState.abandon at h
      rw [TurnState.hostActive.unaborted hactive] at h
      dsimp only at h
      split at h
      · cases h
      -- no call is abandoned while its turn is active
      · next _ haborted _ => cases haborted
      · cases h

/-- A parsed call, at an instant the schema knows, is one the kernel can answer. -/
theorem answerable_of_parsed {candidate call : ToolCall} {now : JsString}
    (hcall : toolCallSchema candidate = some call) (hnow : timestampSchema now = some now) :
    Answerable (contextAt turn.executionContext now) call := by
  obtain ⟨id, hid, hcall⟩ := Option.bind_eq_some_iff.mp hcall
  obtain ⟨tool, htool, hcall⟩ := Option.bind_eq_some_iff.mp hcall
  obtain ⟨arguments, -, hcall⟩ := Option.bind_eq_some_iff.mp hcall
  obtain ⟨traceId, -, hcall⟩ := Option.bind_eq_some_iff.mp hcall
  obtain ⟨requestedAt, -, hcall⟩ := Option.bind_eq_some_iff.mp hcall
  cases hcall
  exact ⟨trimmedString_idem hid, trimmedString_idem htool, hnow⟩

/-- **While the turn is active and nothing troubles it, no call fails.** -/
theorem executorStep_unfailing (hactive : s.hostActive = true) {label : TurnLabel}
    (hlabel : Untroubled label) (h : ∀ c ∈ s.ledger.calls, c.Unfailing)
    (hstep : executorStep turn s label = some s') : ∀ c ∈ s'.ledger.calls, c.Unfailing := by
  have hsame : ∀ {t : TurnState}, t.ledger.calls = s.ledger.calls →
      ∀ c ∈ t.ledger.calls, c.Unfailing := fun hcalls => hcalls ▸ h
  have hadd : ∀ {t : TurnState} {d : MediatedCall}, t.ledger.calls = s.ledger.calls ++ [d] →
      d.Unfailing → ∀ c ∈ t.ledger.calls, c.Unfailing := by
    intro t d hcalls hd c hc
    rw [hcalls] at hc
    rcases List.mem_append.mp hc with hc | hc
    · exact h c hc
    · rw [List.mem_singleton.mp hc]
      exact hd
  have heffect := executorStep_effect hstep
  cases heffect with
  | body hopen heffect =>
      cases heffect with
      | silent hs => exact hsame hs.calls
      | ended hs hends => exact hsame hs.calls
  | silent hs => exact hsame hs.calls
  | neverBegan hphase => exact h
  | listed hphase => exact h
  | stated hactive => exact h
  | requested hactive _ hcall _ heffect =>
      cases heffect with
      | refused => exact hadd (calls_refuseCall ..) ⟨trivial, nofun⟩
      | admitted =>
          exact hadd (calls_admitCall ..)
            ⟨completes_invokeTool (answerable_of_parsed hcall hlabel), nofun⟩
  | call hi heffect =>
      obtain ⟨d, hd, hcall⟩ := Option.bind_eq_some_iff.mp hstep
      obtain ⟨s₁, c', rfl, hcalls, -, hc'⟩ :=
        callStep_unfailing hactive hlabel (h d (List.mem_of_getElem? hd)) hcall
      intro c hc
      rcases List.mem_or_eq_of_mem_set hc with hc | rfl
      · exact hsame hcalls c hc
      · exact hc'

/-! ## A call comes back -/

/-- The answers of these surroundings, and the call's own way back. -/
def Drives (surroundings : (o : KernelOp) → o.Answer) : CallEvent → Prop
  | .kernelAnswers answers => answers = surroundings
  | .kernelSettles | .accounts | .delivers => True
  | .abandons => False

/-- Driven by these surroundings alone, the call is answered with a result. -/
def ComesBack (turn : Turn) (i : ℕ) (surroundings : (o : KernelOp) → o.Answer) (s : TurnState) :
    Prop :=
  ∃ (events : List CallEvent) (s' : TurnState),
    run (executorStep turn) s (events.map (.call i)) = some s' ∧
    (∀ event ∈ events, Drives surroundings event) ∧
    ∃ c result, s'.ledger.calls[i]? = some c ∧ c.answer = some (.ok result)

variable {surroundings : (o : KernelOp) → o.Answer}

/-- One step more. -/
theorem ComesBack.step {event : CallEvent} (hi : s.ledger.calls[i]? = some c)
    (hstep : callStep turn s i c event = some s') (hdrives : Drives surroundings event)
    (h : ComesBack turn i surroundings s') : ComesBack turn i surroundings s := by
  obtain ⟨events, s'', hrun, hdriven, hback⟩ := h
  refine ⟨event :: events, s'', ?_, fun e he => ?_, hback⟩
  · rw [List.map_cons]
    refine run_cons.mpr ⟨s', ?_, hrun⟩
    show (s.ledger.calls[i]?.bind fun c => callStep turn s i c event) = some s'
    rw [hi]
    exact hstep
  · rcases List.mem_cons.mp he with rfl | he
    · exact hdrives
    · exact hdriven e he

theorem comesBack_accounted (hactive : s.hostActive = true) (hi : s.ledger.calls[i]? = some c)
    {result : ToolResult} (hstage : c.stage = .accounted (.ok result)) (hanswer : c.answer = none)
    (hresult : WellFormed result) : ComesBack turn i surroundings s := by
  have hstep : callStep turn s i c .delivers = some ((s.emit (TurnState.completed result c.step)).setCall
      i { c with answer := some (.ok result) }) := by
    unfold callStep TurnState.deliver
    rw [hstage, hanswer]
    dsimp only
    rw [show toolResultSchema result = some result from hresult]
    dsimp only
    rw [hactive]
    rfl
  exact ComesBack.step hi hstep trivial
    ⟨[], _, rfl, fun _ he => absurd he List.not_mem_nil, _, result,
      getElem?_setCall hi rfl, rfl⟩

theorem comesBack_watched (hactive : s.hostActive = true) (hi : s.ledger.calls[i]? = some c)
    {result : ToolResult} {isOutage : Bool} (hstage : c.stage = .watched (.ok result) isOutage)
    (hanswer : c.answer = none) (hresult : WellFormed result) :
    ComesBack turn i surroundings s := by
  have hstep : callStep turn s i c .accounts =
      some ((s.settleWrite c (isRefusedBeforeEffect result)).setCall i
        { c with stage := .accounted (.ok result) }) := by
    unfold callStep TurnState.accountFor
    dsimp only
    rw [hstage]
  have hat : ((s.settleWrite c (isRefusedBeforeEffect result)).setCall i
      { c with stage := .accounted (.ok result) }).ledger.calls[i]? =
        some { c with stage := .accounted (.ok result) } :=
    getElem?_setCall hi (silent_settleWrite s c _).calls
  exact ComesBack.step hi hstep trivial (comesBack_accounted hactive hat rfl hanswer hresult)

/-- **A call that is with the kernel comes back**, by induction on what the kernel has left to do. -/
theorem comesBack_withKernel (hsurroundings : Accepts surroundings) {rest : KernelM ToolResult}
    (hactive : s.hostActive = true) (hi : s.ledger.calls[i]? = some c)
    (hstage : c.stage = .withKernel rest) (hanswer : c.answer = none)
    (hrest : Completing WellFormed rest) : ComesBack turn i surroundings s := by
  induction rest generalizing s c with
  | done result =>
      have hstep : callStep turn s i c .kernelSettles =
          some (s.setCall i { c with stage := .watched (.ok result) false }) := by
        unfold callStep TurnState.kernelSettles
        dsimp only
        rw [hstage]
      exact ComesBack.step hi hstep trivial
        (comesBack_watched hactive (getElem?_setCall hi rfl) rfl hanswer hrest)
  | throw e => exact hrest.elim
  | ask o next ih =>
      let x := s.answerOf turn surroundings o
      have hstep : callStep turn s i c (.kernelAnswers surroundings) =
          some (s.setCall i { c with trace := c.trace ++ [⟨o, x⟩], stage := .withKernel (next x) }) := by
        unfold callStep TurnState.kernelAnswers
        dsimp only
        rw [hstage]
      have hnext : Completing WellFormed (next x) :=
        hrest x (accepting_answerOf hactive hsurroundings o)
      exact ComesBack.step hi hstep rfl
        (ih x hactive (getElem?_setCall hi rfl) rfl hanswer hnext)

/-- **A call that is out comes back.** -/
theorem call_completes (hsurroundings : Accepts surroundings) (hactive : s.hostActive = true)
    (hi : s.ledger.calls[i]? = some c) (hc : c.Unfailing) : ComesBack turn i surroundings s := by
  have hstage := hc.stage
  cases hanswer : c.answer with
  | some settled =>
      cases settled with
      | ok result => exact ⟨[], s, rfl, fun _ he => absurd he List.not_mem_nil, c, result, hi, hanswer⟩
      | error thrown => exact absurd hanswer (hc.answer thrown)
  | none =>
      cases hcase : c.stage with
      | refused result =>
          have hstep : callStep turn s i c .delivers =
              some (s.setCall i { c with answer := some (.ok result) }) := by
            unfold callStep TurnState.deliver
            rw [hcase, hanswer]
          exact ComesBack.step hi hstep trivial
            ⟨[], _, rfl, fun _ he => absurd he List.not_mem_nil, _, result, getElem?_setCall hi rfl, rfl⟩
      | withKernel rest =>
          rw [hcase] at hstage
          exact comesBack_withKernel hsurroundings hactive hi hcase hanswer hstage
      | watched settled isOutage =>
          rw [hcase] at hstage
          cases settled with
          | error thrown => exact hstage.elim
          | ok result => exact comesBack_watched hactive hi hcase hanswer hstage
      | accounted settled =>
          rw [hcase] at hstage
          cases settled with
          | error thrown => exact hstage.elim
          | ok result => exact comesBack_accounted hactive hi hcase hanswer hstage

end Unfailing

end SharedOS.Runtime
