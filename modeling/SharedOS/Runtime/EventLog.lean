/-
SharedOS.Runtime.EventLog — the event stream of a turn is a well-formed log.

Events are numbered by their position. A call that completes was requested before, under the same
id, and completes once. The turn's own ending is the last event, it says the status that was
returned, and nothing follows it, whatever is still with the kernel.
-/
import SharedOS.Runtime.Budgets

namespace SharedOS.Runtime

open SharedOS.Foundation SharedOS.Contracts SharedOS.Core SharedOS.Kernel

/-! ## A log -/

/-- The id of a call that is requested. -/
def requestedId (e : ExecutionEvent) : Option JsString :=
  match e.data with
  | .toolRequested callId _ _ => some callId
  | _ => none

/-- The id of a call that completes. -/
def completedId (e : ExecutionEvent) : Option JsString :=
  match e.data with
  | .toolCompleted callId _ _ _ _ => some callId
  | _ => none

/-- `turn.denied`, `turn.completed`, `turn.escalated`, `turn.failed` or `turn.cancelled`. -/
def IsTerminal (data : ExecutionEventData) : Prop := ∃ ending, EndsWith data ending

/-- Events numbered as they came, with no completion before its request. -/
structure WellFormedLog (events : List ExecutionEvent) : Prop where
  numbered : ∀ (k : ℕ) (e : ExecutionEvent), events[k]? = some e → e.sequence = k
  /-- At every point, each completion has a request of its own before it, under the same id. -/
  answered : ∀ k, ((events.take k).filterMap completedId).Subperm
    ((events.take k).filterMap requestedId)

theorem wellFormedLog_nil : WellFormedLog [] where
  numbered _ _ h := by simp at h
  answered _ := by simp

/-- **One event more.** -/
theorem WellFormedLog.snoc {events : List ExecutionEvent} (h : WellFormedLog events)
    {data : ExecutionEventData}
    (hanswered : ((events ++ [ExecutionEvent.mk events.length data]).filterMap completedId).Subperm
      ((events ++ [ExecutionEvent.mk events.length data]).filterMap requestedId)) :
    WellFormedLog (events ++ [ExecutionEvent.mk events.length data]) where
  numbered k e hk := by
    by_cases hin : k < events.length
    · rw [List.getElem?_append_left hin] at hk
      exact h.numbered k e hk
    · have hlast : k = events.length := by
        have := (List.getElem?_eq_some_iff.mp hk).1
        simp at this
        omega
      subst hlast
      rw [List.getElem?_concat_length] at hk
      cases hk
      rfl
  answered k := by
    by_cases hin : k ≤ events.length
    · rw [List.take_append_of_le_length hin]
      exact h.answered k
    · rw [List.take_of_length_le (by simp; omega)]
      exact hanswered

/-- An event that is about no call. -/
theorem WellFormedLog.quiet {events : List ExecutionEvent} (h : WellFormedLog events)
    {data : ExecutionEventData} (hrequested : requestedId (ExecutionEvent.mk events.length data) = none)
    (hcompleted : completedId (ExecutionEvent.mk events.length data) = none) :
    WellFormedLog (events ++ [ExecutionEvent.mk events.length data]) := by
  refine h.snoc ?_
  have hwhole := h.answered events.length
  rw [List.take_length] at hwhole
  rw [List.filterMap_append, List.filterMap_append]
  simpa [hrequested, hcompleted] using hwhole

theorem EndsWith.requestedId {data : ExecutionEventData} {ending : TurnEnding}
    (h : EndsWith data ending) (k : ℕ) : requestedId (ExecutionEvent.mk k data) = none := by
  cases h <;> rfl

theorem EndsWith.completedId {data : ExecutionEventData} {ending : TurnEnding}
    (h : EndsWith data ending) (k : ℕ) : completedId (ExecutionEvent.mk k data) = none := by
  cases h <;> rfl

/-! ## The invariant -/

/-- The id a call was requested under, and completes under. -/
def MediatedCall.id (c : MediatedCall) : JsString := c.call.id

/-- The id a call has completed under. -/
def MediatedCall.completedUnder (c : MediatedCall) : Option JsString :=
  if c.isCompleted then some c.id else none

/-- How a closed turn ended: with one terminal event, the last, of the status returned. A turn that
never began has no event, and is cancelled. -/
def EndedAs (began : Prop) (events : List ExecutionEvent) (ending : TurnEnding) : Prop :=
  (began → ∃ before last, events = before ++ [last] ∧ EndsWith last.data ending ∧
    ∀ e ∈ before, ¬ IsTerminal e.data) ∧
  (¬ began → events = [] ∧ ∃ error, ending = .cancelled error)

/-- **The invariant of the event stream.** Whether the turn began at all is settled by its first
step. -/
structure Logged [HostPlatform] (began : Prop) (s : TurnState) : Prop where
  log : WellFormedLog s.events
  requested : s.events.filterMap requestedId = s.ledger.calls.map MediatedCall.id
  completed : (s.events.filterMap completedId).Perm
    (s.ledger.calls.filterMap MediatedCall.completedUnder)
  named : ∀ c ∈ s.ledger.calls, c.Returning (Answers c.call) ∧ identifierSchema c.id = some c.id
  unfresh : s.phase ≠ .fresh
  running : s.phase ≠ .closed → began ∧ s.result = none ∧ ∀ e ∈ s.events, ¬ IsTerminal e.data
  closed : s.phase = .closed → ∃ result, s.result = some result ∧ result.events = s.events ∧
    EndedAs began s.events result.ending

section Invariant

variable [HostPlatform] {turn : Turn} {began : Prop} {s s' : TurnState} {c c' : MediatedCall}
  {i : ℕ}

theorem Logged.silent (h : Logged began s) (hs : Silent s s') : Logged began s' where
  log := hs.events ▸ h.log
  requested := by
    rw [hs.events, hs.calls]
    exact h.requested
  completed := by
    rw [hs.events, hs.calls]
    exact h.completed
  named := hs.calls ▸ h.named
  unfresh hfresh := h.unfresh (hs.fresh hfresh)
  running hopen := by
    rw [hs.result, hs.events]
    exact h.running fun hclosed => hopen (hs.closed.mpr hclosed)
  closed hclosed := by
    rw [hs.result, hs.events]
    exact h.closed (hs.closed.mp hclosed)

omit [HostPlatform] in
theorem not_terminal_append {events : List ExecutionEvent} {e : ExecutionEvent}
    (h : ∀ e ∈ events, ¬ IsTerminal e.data) (he : ¬ IsTerminal e.data) :
    ∀ e' ∈ events ++ [e], ¬ IsTerminal e'.data := by
  intro e' he'
  rcases List.mem_append.mp he' with he' | he'
  · exact h e' he'
  · rw [List.mem_singleton.mp he']
    exact he

/-- An event about no call, while the turn runs. -/
theorem Logged.emit (h : Logged began s) (hopen : s.phase ≠ .closed) {data : ExecutionEventData}
    (hrequested : requestedId (ExecutionEvent.mk s.events.length data) = none)
    (hcompleted : completedId (ExecutionEvent.mk s.events.length data) = none)
    (hterminal : ¬ IsTerminal data) : Logged began (s.emit data) where
  log := h.log.quiet hrequested hcompleted
  requested := by
    show (s.events ++ [_]).filterMap _ = s.ledger.calls.map _
    rw [List.filterMap_append, h.requested]
    simp [hrequested]
  completed := by
    show ((s.events ++ [_]).filterMap _).Perm (s.ledger.calls.filterMap _)
    rw [List.filterMap_append]
    simpa [hcompleted] using h.completed
  named := h.named
  unfresh := h.unfresh
  running _ := by
    obtain ⟨hbegan, hresult, hnone⟩ := h.running hopen
    exact ⟨hbegan, hresult, not_terminal_append hnone hterminal⟩
  closed hclosed := absurd hclosed hopen

/-- The plugin is handed its tools. -/
theorem Logged.lists (h : Logged began s) (hopen : s.phase ≠ .closed)
    (effectiveTools : List ToolDefinition) :
    Logged began { s with phase := .running, effectiveTools } where
  log := h.log
  requested := h.requested
  completed := h.completed
  named := h.named
  unfresh := nofun
  running _ := h.running hopen
  closed := nofun

/-- **The turn ends**: with its one terminal event. -/
theorem Logged.ended (h : Logged began s) (hopen : s.phase ≠ .closed) {data : ExecutionEventData}
    {ending : TurnEnding} (hends : EndsWith data ending) :
    Logged began ((s.emit data).endTurn turn ending) where
  log := h.log.quiet (hends.requestedId _) (hends.completedId _)
  requested := by
    show (s.events ++ [_]).filterMap _ = s.ledger.calls.map _
    rw [List.filterMap_append, h.requested]
    simp [hends.requestedId]
  completed := by
    show ((s.events ++ [_]).filterMap _).Perm (s.ledger.calls.filterMap _)
    rw [List.filterMap_append]
    simpa [hends.completedId] using h.completed
  named := h.named
  unfresh := nofun
  running hopen' := absurd rfl hopen'
  closed _ := by
    obtain ⟨hbegan, -, hnone⟩ := h.running hopen
    exact ⟨_, rfl, rfl, fun _ => ⟨_, _, rfl, hends, hnone⟩, fun hnot => absurd hbegan hnot⟩

theorem Logged.body (h : Logged began s) (hopen : s.phase ≠ .closed)
    (heffect : BodyEffect turn s s') : Logged began s' := by
  cases heffect with
  | silent hs => exact h.silent hs
  | ended hs hends =>
      exact (h.silent hs).ended (fun hclosed => hopen (hs.closed.mp hclosed)) hends

omit [HostPlatform] in
theorem MediatedCall.Moves.id (h : c.Moves c') : c'.id = c.id := congrArg ToolCall.id h.call

omit [HostPlatform] in
theorem MediatedCall.Moves.completedUnder (h : c.Moves c') :
    c'.completedUnder = c.completedUnder := by
  rw [MediatedCall.completedUnder, MediatedCall.completedUnder, h.isCompleted, h.id]

/-- A call that moves neither is requested nor completes. -/
theorem Logged.moved (h : Logged began s) (hi : s.ledger.calls[i]? = some c)
    (hmoves : c.Moves c') : Logged began (s.setCall i c') where
  log := h.log
  requested := by
    show _ = (s.ledger.calls.set i c').map _
    rw [map_set_same hi hmoves.id]
    exact h.requested
  completed := by
    show List.Perm _ ((s.ledger.calls.set i c').filterMap _)
    rw [filterMap_set_same hi hmoves.completedUnder]
    exact h.completed
  named d hd := by
    rcases List.mem_or_eq_of_mem_set hd with hd | rfl
    · exact h.named d hd
    · obtain ⟨hreturning, hid⟩ := h.named c (List.mem_of_getElem? hi)
      rw [hmoves.call, hmoves.id]
      exact ⟨hmoves.returning _ hreturning, hid⟩
  unfresh := h.unfresh
  running := h.running
  closed := h.closed

/-! ## A call is asked for, and completes -/

omit [HostPlatform] in
theorem completedUnder_eq {c : MediatedCall} {id : JsString} (h : c.completedUnder = some id) :
    id = c.id := by
  unfold MediatedCall.completedUnder at h
  split at h
  · exact (Option.some.inj h).symm
  · cases h

omit [HostPlatform] in
/-- What has completed is among what has been asked for. -/
theorem answered_of_calls {events : List ExecutionEvent} {calls : List MediatedCall}
    (hrequested : events.filterMap requestedId = calls.map MediatedCall.id)
    (hcompleted : (events.filterMap completedId).Perm
      (calls.filterMap MediatedCall.completedUnder)) :
    (events.filterMap completedId).Subperm (events.filterMap requestedId) := by
  rw [hrequested]
  have hsublist : (calls.filterMap MediatedCall.completedUnder).Sublist
      (calls.map MediatedCall.id) := filterMap_sublist_map fun _ _ => completedUnder_eq
  exact hcompleted.subperm.trans hsublist.subperm

omit [HostPlatform] in
/-- A request answers nothing, and is one more to be answered. -/
theorem WellFormedLog.request {events : List ExecutionEvent} (h : WellFormedLog events)
    (id tool : JsString) (step : Option ℕ) :
    WellFormedLog (events ++ [ExecutionEvent.mk events.length (.toolRequested id tool step)]) := by
  have hwhole := h.answered events.length
  rw [List.take_length] at hwhole
  refine h.snoc ?_
  rw [List.filterMap_append, List.filterMap_append]
  show (events.filterMap completedId ++ []).Subperm (events.filterMap requestedId ++ [id])
  rw [List.append_nil]
  exact hwhole.trans (List.sublist_append_left _ _).subperm

omit [HostPlatform] in
theorem not_terminal_request (id tool : JsString) (step : Option ℕ) :
    ¬ IsTerminal (.toolRequested id tool step) := by
  rintro ⟨_, hends⟩
  cases hends

omit [HostPlatform] in
theorem not_terminal_completed (result : ToolResult) (step : Option ℕ) :
    ¬ IsTerminal (TurnState.completed result step) := by
  rintro ⟨_, hends⟩
  cases hends

omit [HostPlatform] in
theorem TurnState.hostActive.isOpen (h : s.hostActive = true) : s.phase ≠ .closed := by
  simp only [TurnState.hostActive, Bool.and_eq_true, decide_eq_true_eq] at h
  exact h.1

variable {call : ToolCall} {step : Option ℕ} {now : JsString}

/-- **A call is refused**: asked for and completed in one go. -/
theorem Logged.refuseCall (h : Logged began s) (hopen : s.phase ≠ .closed)
    (hcall : identifierSchema call.id = some call.id) (count : ℕ) (steps : List ℕ)
    (code message : JsString) (cause : Option JsString) :
    Logged began (((s.emit (.toolRequested call.id call.tool step)).withCounts count steps).refuseCall
      turn call step now code message cause) := by
  let asked := (s.emit (.toolRequested call.id call.tool step)).withCounts count steps
  have hcalls : (asked.refuseCall turn call step now code message cause).ledger.calls =
      s.ledger.calls ++ [refusedCall turn call step now code message] := calls_refuseCall ..
  have hevents : (asked.refuseCall turn call step now code message cause).events =
      asked.events ++ [ExecutionEvent.mk asked.events.length
        (TurnState.completed (envelopeRefusal call now code message) step)] := events_refuseCall ..
  have hasked : asked.events = s.events ++
    [ExecutionEvent.mk s.events.length (.toolRequested call.id call.tool step)] := rfl
  have hrequested : (asked.refuseCall turn call step now code message cause).events.filterMap
      requestedId = (asked.refuseCall turn call step now code message cause).ledger.calls.map
        MediatedCall.id := by
    rw [hevents, hcalls, List.filterMap_append, hasked, List.filterMap_append, List.map_append,
      h.requested]
    exact List.append_nil _
  have hcompleted : ((asked.refuseCall turn call step now code message cause).events.filterMap
      completedId).Perm ((asked.refuseCall turn call step now code message
        cause).ledger.calls.filterMap MediatedCall.completedUnder) := by
    rw [hevents, hcalls, List.filterMap_append, hasked, List.filterMap_append,
      List.filterMap_append]
    show (s.events.filterMap completedId ++ [] ++ [call.id]).Perm
      (s.ledger.calls.filterMap MediatedCall.completedUnder ++ [call.id])
    rw [List.append_nil]
    exact h.completed.append_right _
  refine ⟨?_, hrequested, hcompleted, ?_, h.unfresh, fun _ => ?_, fun hclosed => absurd hclosed hopen⟩
  · have hanswered := answered_of_calls hrequested hcompleted
    rw [hevents] at hanswered ⊢
    exact (h.log.request call.id call.tool step).snoc hanswered
  · rw [hcalls]
    intro c hc
    rcases List.mem_append.mp hc with hc | hc
    · exact h.named c hc
    · rw [List.mem_singleton.mp hc]
      exact ⟨trivial, hcall⟩
  · obtain ⟨hbegan, hresult, hnone⟩ := h.running hopen
    refine ⟨hbegan, hresult, ?_⟩
    rw [hevents]
    exact not_terminal_append (not_terminal_append hnone (not_terminal_request _ _ _))
      (not_terminal_completed _ _)

/-- **A call is admitted**: asked for, and with the kernel. -/
theorem Logged.admitCall (h : Logged began s) (hopen : s.phase ≠ .closed)
    (hcall : identifierSchema call.id = some call.id) (count : ℕ) (steps : List ℕ) :
    Logged began (((s.emit (.toolRequested call.id call.tool step)).withCounts count steps).admitCall
      turn call step now) := by
  let asked := (s.emit (.toolRequested call.id call.tool step)).withCounts count steps
  have hcalls : (asked.admitCall turn call step now).ledger.calls =
      s.ledger.calls ++ [admittedCall turn asked call step now] := calls_admitCall ..
  refine ⟨h.log.request .., ?_, ?_, ?_, h.unfresh, fun _ => ?_, fun hclosed => absurd hclosed hopen⟩
  · rw [hcalls, List.map_append, ← h.requested]
    exact List.filterMap_append
  · rw [hcalls, List.filterMap_append]
    show ((s.events ++ [_]).filterMap completedId).Perm
      (s.ledger.calls.filterMap MediatedCall.completedUnder ++ [])
    rw [List.filterMap_append, List.append_nil]
    show (s.events.filterMap completedId ++ []).Perm _
    rw [List.append_nil]
    exact h.completed
  · rw [hcalls]
    intro c hc
    rcases List.mem_append.mp hc with hc | hc
    · exact h.named c hc
    · rw [List.mem_singleton.mp hc]
      exact ⟨answers_invokeTool, hcall⟩
  · obtain ⟨hbegan, hresult, hnone⟩ := h.running hopen
    exact ⟨hbegan, hresult, not_terminal_append hnone (not_terminal_request _ _ _)⟩

theorem toolResultSchema_callId {candidate result : ToolResult}
    (h : toolResultSchema candidate = some result) :
    identifierSchema candidate.callId = some result.callId := by
  obtain ⟨callId, hid, h⟩ := Option.bind_eq_some_iff.mp h
  obtain ⟨tool, -, h⟩ := Option.bind_eq_some_iff.mp h
  obtain ⟨completedAt, -, h⟩ := Option.bind_eq_some_iff.mp h
  obtain ⟨outcome, -, h⟩ := Option.bind_eq_some_iff.mp h
  obtain ⟨metadata, -, h⟩ := Option.bind_eq_some_iff.mp h
  cases h
  exact hid

/-- A parsed call's id is one the schema leaves as it is. -/
theorem toolCallSchema_id {candidate call : ToolCall} (h : toolCallSchema candidate = some call) :
    identifierSchema call.id = some call.id := by
  obtain ⟨id, hid, h⟩ := Option.bind_eq_some_iff.mp h
  obtain ⟨tool, -, h⟩ := Option.bind_eq_some_iff.mp h
  obtain ⟨arguments, -, h⟩ := Option.bind_eq_some_iff.mp h
  obtain ⟨traceId, -, h⟩ := Option.bind_eq_some_iff.mp h
  obtain ⟨requestedAt, -, h⟩ := Option.bind_eq_some_iff.mp h
  cases h
  exact trimmedString_idem hid

/-- **A call completes** under the id it was asked for. -/
theorem Logged.completes (h : Logged began s) (hopen : s.phase ≠ .closed)
    (hi : s.ledger.calls[i]? = some c) {candidate result : ToolResult}
    (hstage : c.stage = .accounted (.ok candidate)) (hanswer : c.answer = none)
    (hparse : toolResultSchema candidate = some result) :
    Logged began ((s.emit (TurnState.completed result c.step)).setCall i
      { c with answer := some (.ok result) }) := by
  obtain ⟨hreturning, hid⟩ := h.named c (List.mem_of_getElem? hi)
  have hanswers : Answers c.call candidate := by
    rw [MediatedCall.Returning, hstage] at hreturning
    exact hreturning
  -- the kernel named the call, and the parse keeps a name the call already had
  have hcallId : result.callId = c.id := by
    have hnamed : identifierSchema candidate.callId = some result.callId := toolResultSchema_callId hparse
    rw [hanswers.1] at hnamed
    exact Option.some.inj (hnamed.symm.trans hid)
  have hbefore : c.completedUnder = none := by
    rw [MediatedCall.completedUnder, MediatedCall.isCompleted, MediatedCall.handed, hstage, hanswer]
    rfl
  have hafter : MediatedCall.completedUnder { c with answer := some (.ok result) } = some c.id := by
    rw [MediatedCall.completedUnder, MediatedCall.isCompleted]
    exact if_pos (by simp [Except.isOk, Except.toBool])
  have hrequested : (s.events ++ [ExecutionEvent.mk s.events.length
      (TurnState.completed result c.step)]).filterMap requestedId =
        (s.ledger.calls.set i { c with answer := some (.ok result) }).map MediatedCall.id := by
    have hsame : (s.ledger.calls.set i { c with answer := some (.ok result) }).map MediatedCall.id =
        s.ledger.calls.map MediatedCall.id := map_set_same hi rfl
    rw [hsame, List.filterMap_append, h.requested]
    exact List.append_nil _
  have hcompleted : ((s.events ++ [ExecutionEvent.mk s.events.length
      (TurnState.completed result c.step)]).filterMap completedId).Perm
        ((s.ledger.calls.set i { c with answer := some (.ok result) }).filterMap
          MediatedCall.completedUnder) := by
    refine List.Perm.trans ?_ (filterMap_set_perm hi hbefore hafter).symm
    rw [List.filterMap_append]
    show (s.events.filterMap completedId ++ [result.callId]).Perm _
    rw [hcallId]
    exact h.completed.append_right _
  refine ⟨h.log.snoc (answered_of_calls hrequested hcompleted), hrequested, hcompleted, ?_,
    h.unfresh, fun _ => ?_, fun hclosed => absurd hclosed hopen⟩
  · intro d hd
    rcases List.mem_or_eq_of_mem_set hd with hd | rfl
    · exact h.named d hd
    · exact ⟨hreturning, hid⟩
  · obtain ⟨hbegan, hresult, hnone⟩ := h.running hopen
    exact ⟨hbegan, hresult, not_terminal_append hnone (not_terminal_completed _ _)⟩

/-- **Every step keeps the event stream in order.** -/
theorem executorStep_logged (h : Logged began s) {label : TurnLabel}
    (hstep : executorStep turn s label = some s') : Logged began s' := by
  cases executorStep_effect hstep with
  | body hopen heffect => exact h.body hopen heffect
  | silent hs => exact h.silent hs
  | neverBegan hphase => exact absurd hphase h.unfresh
  | listed hphase =>
      refine (h.lists (hphase ▸ nofun) _).emit nofun rfl rfl ?_
      rintro ⟨_, hends⟩
      cases hends
  | stated hactive =>
      refine h.emit (TurnState.hostActive.isOpen hactive) rfl rfl ?_
      rintro ⟨_, hends⟩
      cases hends
  | requested hactive _ hcall _ heffect =>
      have hopen := TurnState.hostActive.isOpen hactive
      cases heffect with
      | refused => exact h.refuseCall hopen (toolCallSchema_id hcall) ..
      | admitted => exact h.admitCall hopen (toolCallSchema_id hcall) ..
  | call hi heffect =>
      cases heffect with
      | moved hs hmoves => exact (h.silent hs).moved (hs.calls ▸ hi) hmoves
      | completed hactive hstage hanswer hparse =>
          exact h.completes (TurnState.hostActive.isOpen hactive) hi hstage hanswer hparse

/-! ## From the first step -/

/-- The message agrees with its context, and the caller's signal had fired before the turn began. -/
def NeverBegan (turn : Turn) (labels : List TurnLabel) : Prop :=
  validateTurnContext turn.request = none ∧ ∃ reason, labels.head? = some (.start (some reason))

/-- A turn can only start. -/
theorem executorStep_initial {label : TurnLabel}
    (h : executorStep turn (.initial turn) label = some s) :
    ∃ parent, label = .start parent ∧ s = (TurnState.initial turn).start turn parent := by
  cases label with
  | start parent => exact ⟨parent, rfl, (Option.some.inj h).symm⟩
  | drainDeadline =>
      unfold executorStep at h
      dsimp only at h
      split at h
      · cases h
      · cases h
  | graceExpires =>
      unfold executorStep at h
      obtain ⟨reason, -, hsignalled⟩ := Option.bind_eq_some_iff.mp h
      cases hsignalled
  | _ => cases h

theorem logged_start (parent : Option Thrown) (rest : List TurnLabel) :
    Logged (¬ NeverBegan turn (.start parent :: rest))
      ((TurnState.initial turn).start turn parent) := by
  unfold TurnState.start
  cases hvalid : validateTurnContext turn.request with
  | some error =>
      have hbegan : ¬ NeverBegan turn (.start parent :: rest) := by
        rintro ⟨hnone, -⟩
        rw [hvalid] at hnone
        cases hnone
      refine ⟨wellFormedLog_nil.quiet rfl rfl, rfl, .nil, fun _ hc => absurd hc List.not_mem_nil,
        nofun, fun hopen => absurd rfl hopen, fun _ => ⟨_, rfl, rfl, fun _ => ?_, ?_⟩⟩
      · exact ⟨[], _, rfl, .denied .., fun _ he => absurd he List.not_mem_nil⟩
      · exact fun hnot => absurd hbegan hnot
  | none =>
      cases parent with
      | some reason =>
          have hnever : NeverBegan turn (.start (some reason) :: rest) := ⟨hvalid, reason, rfl⟩
          refine ⟨wellFormedLog_nil, rfl, .nil, fun _ hc => absurd hc List.not_mem_nil, nofun,
            fun hopen => absurd rfl hopen, fun _ => ⟨_, rfl, rfl, ?_, fun _ => ⟨rfl, _, rfl⟩⟩⟩
          exact fun hbegan => absurd hnever hbegan
      | none =>
          have hbegan : ¬ NeverBegan turn (.start none :: rest) := by
            rintro ⟨-, reason, hhead⟩
            cases hhead
          exact ⟨wellFormedLog_nil, rfl, .nil, fun _ hc => absurd hc List.not_mem_nil, nofun,
            fun _ => ⟨hbegan, rfl, fun _ he => absurd he List.not_mem_nil⟩, nofun⟩

/-- **The invariant holds from the first step on.** -/
theorem run_logged {label : TurnLabel} {labels : List TurnLabel}
    (h : run (executorStep turn) (.initial turn) (label :: labels) = some s) :
    Logged (¬ NeverBegan turn (label :: labels)) s := by
  obtain ⟨s₁, hfirst, hrest⟩ := run_cons.mp h
  obtain ⟨parent, rfl, rfl⟩ := executorStep_initial hfirst
  exact run_invariant (fun _ _ _ h hstep => executorStep_logged h hstep) (logged_start parent labels)
    hrest

/-! ## After the result -/

/-- The turn has been returned, and this is what of it can be read. -/
structure Returned (events : List ExecutionEvent) (result : Option ExecutionResult)
    (s : TurnState) : Prop where
  closed : s.phase = .closed
  events : s.events = events
  result : s.result = result

theorem executorStep_returned {events : List ExecutionEvent} {result : Option ExecutionResult}
    (h : Returned events result s) {label : TurnLabel}
    (hstep : executorStep turn s label = some s') : Returned events result s' := by
  have hsilent : ∀ {t : TurnState}, Silent s t → Returned events result t := fun hs =>
    ⟨hs.closed.mpr h.closed, hs.events.trans h.events, hs.result.trans h.result⟩
  have hinactive : s.hostActive ≠ true := fun hactive =>
    TurnState.hostActive.isOpen hactive h.closed
  cases executorStep_effect hstep with
  | body hopen => exact absurd h.closed hopen
  | silent hs => exact hsilent hs
  | neverBegan hphase =>
      rw [h.closed] at hphase
      cases hphase
  | listed hphase =>
      rw [h.closed] at hphase
      cases hphase
  | stated hactive => exact absurd hactive hinactive
  | requested hactive => exact absurd hactive hinactive
  | call hi heffect =>
      cases heffect with
      | moved hs =>
          obtain ⟨hclosed, hevents, hresult⟩ := hsilent hs
          exact ⟨hclosed, hevents, hresult⟩
      | completed hactive => exact absurd hactive hinactive

/-! ## The event stream -/

/-- What holds of the event stream in a state of the turn. -/
structure EventStream (turn : Turn) (neverBegan : Prop) (s : TurnState) : Prop where
  /-- Numbered by position, and at every point each completion has a request of its own before it. -/
  log : WellFormedLog s.events
  /-- Each call is requested once, in order, and one that completes does so once, under its id. -/
  requested : s.events.filterMap requestedId = s.ledger.calls.map MediatedCall.id
  completed : (s.events.filterMap completedId).Perm
    (s.ledger.calls.filterMap MediatedCall.completedUnder)
  running : s.result = none → ∀ e ∈ s.events, ¬ IsTerminal e.data
  returned : ∀ result, s.result = some result → result.events = s.events ∧
    EndedAs (¬ neverBegan) s.events result.ending
  frozen : ∀ result, s.result = some result → ∀ labels s',
    run (executorStep turn) s labels = some s' → s'.events = s.events ∧ s'.result = some result

/-- **The event stream is a well-formed log**, in every state of every run. -/
theorem event_stream_well_formed {turn : Turn} {labels : List TurnLabel} {s : TurnState}
    (hrun : run (executorStep turn) (.initial turn) labels = some s) :
    EventStream turn (NeverBegan turn labels) s := by
  -- a run without steps has no log; any other starts with the turn itself
  cases labels with
  | nil =>
      cases hrun
      exact ⟨wellFormedLog_nil, rfl, .nil, fun _ _ he => absurd he List.not_mem_nil, nofun, nofun⟩
  | cons label labels =>
      have hlogged := run_logged hrun
      have hclosed : ∀ result, s.result = some result → s.phase = .closed := by
        intro result hresult
        by_contra hopen
        rw [(hlogged.running hopen).2.1] at hresult
        cases hresult
      refine ⟨hlogged.log, hlogged.requested, hlogged.completed, fun hnone => ?_,
        fun result hresult => ?_, fun result hresult later s' hlater => ?_⟩
      · refine (hlogged.running fun hphase => ?_).2.2
        obtain ⟨result, hresult, -⟩ := hlogged.closed hphase
        rw [hnone] at hresult
        cases hresult
      · obtain ⟨result', hresult', hevents, hended⟩ := hlogged.closed (hclosed result hresult)
        obtain rfl := Option.some.inj (hresult'.symm.trans hresult)
        exact ⟨hevents, hended⟩
      · have hreturned : Returned s.events (some result) s' :=
          run_invariant (fun _ _ _ h hstep => executorStep_returned h hstep)
            ⟨hclosed result hresult, rfl, hresult⟩ hlater
        exact ⟨hreturned.events, hreturned.result⟩

end Invariant

open scoped SharedOS.Foundation.Reference in
theorem event_stream_well_formed_reader :
    ∃ s, run (executorStep (Sample.turn Kernel.Sample.reader))
        (.initial (Sample.turn Kernel.Sample.reader))
        (Sample.oneCall 18 Kernel.Sample.surroundings) = some s ∧
      s.events.map ExecutionEvent.sequence = [0, 1, 2, 3] ∧
      EventStream (Sample.turn Kernel.Sample.reader)
        (NeverBegan (Sample.turn Kernel.Sample.reader)
          (Sample.oneCall 18 Kernel.Sample.surroundings)) s :=
  ⟨_, rfl, rfl, @event_stream_well_formed _ _ (Sample.oneCall 18 Kernel.Sample.surroundings) _ rfl⟩

end SharedOS.Runtime
