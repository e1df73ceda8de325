/-
SharedOS.Mcp.InBand — every tool call is recorded, and answered as a result.

A `tools/call` crosses four readers: the parameters, the resolution of the name, the contract of a
tool call, the catalogue. The contract of a tool call asks of a name what the parameters do not. A
request whose name it takes becomes one call of the turn, which is requested once, completes once,
and is what the request is answered with (`tool_calls_answered_in_band`). A request whose name it
does not take is answered as a transport fault, and nothing of it is on record
(`untaken_name_leaves_nothing`).

The session's invariant ties each request to where it is: looking up its name, forwarded, or one of
the turn's calls, and then to that call's own stage. From it, what is on record of a request is read
off the turn's events (`Runtime.EventLog`), which know each call by its place.

That a request is answered in the end is a run that can be continued to its answer from any state the
session is in, while it is open: the surroundings answer, the call settles, the request responds
(`CanBeAnswered`). What a request is answered with is a fact about every run.
-/
import SharedOS.Mcp.Server
import SharedOS.Runtime.CallOutcomes
import SharedOS.Runtime.RetrySafety

namespace SharedOS.Mcp

open SharedOS.Foundation SharedOS.Contracts SharedOS.Core SharedOS.Kernel SharedOS.Runtime

section Session

variable [HostPlatform]

/-! ## A session that nothing disturbs -/

/-- The turn is neither aborted nor closed, and neither is the bridge. -/
def McpState.Live (s : McpState) : Prop := s.turn.hostActive = true ∧ s.isOpen = true

/-- A `tools/call`: its id and its parameters. -/
def toolsCall (message : Json) : Option (JsonRpcId × Option Json) :=
  (jsonRpcRequestSchema message).bind fun request =>
    if request.method = "tools/call" then some (request.id, request.params) else none

/-- The parameters carry a non-empty string name, and their arguments are a JSON object. -/
def CarriesCall (params : Json) : Prop :=
  ((field "name" params).bind nonEmptyString).isSome ∧
    ∀ arguments, field "arguments" params = some arguments → (jsonObjectSchema arguments).isSome

/-- What a step is taken in: a turn and a bridge that stay open, a sink that accepts every write, a
clock that reads timestamps, ids that are identifiers, requests that carry a name and an object. -/
structure Undisturbed (session : McpSession) (s : McpState) (label : McpLabel) : Prop where
  live : ∀ s', mcpStep session s label = some s' → s'.Live
  turn : ∀ l, label = .turn l → Untroubled l
  opens : ∀ now, label = .opens now → timestampSchema now = some now
  receive : ∀ message id params, label = .receive message →
    toolsCall message = some (id, params) → ∃ p, params = some p ∧ CarriesCall p
  forward : ∀ k callId now, label = .forward k callId now →
    identifierSchema callId = some callId ∧ timestampSchema now = some now

/-- The name a request reaches the turn under. -/
def exposedAs (bridge : OpenToolBridgeOptions) (name : JsString) : JsString :=
  resolveCanonicalName (bridge.catalog.getD []) name

/-- The contract of a tool call takes the name: trimmed, it is not blank and not too long. -/
def NameTaken (bridge : OpenToolBridgeOptions) (name : JsString) : Prop :=
  1 ≤ (trim (exposedAs bridge name)).length ∧ (trim (exposedAs bridge name)).length ≤ 256

instance {bridge : OpenToolBridgeOptions} {name : JsString} : Decidable (NameTaken bridge name) :=
  inferInstanceAs (Decidable (_ ∧ _))

/-- A request carries a name the contract of a tool call takes, and `_meta`, if any, is an object. -/
def CallsTaken (s : McpState) (label : McpLabel) : Prop :=
  ∀ message id params bridge, label = .receive message →
    toolsCall message = some (id, some params) → s.bridge = some bridge →
    (∀ extra, field "_meta" params = some extra → (recordSchema extra).isSome) ∧
    ∀ name, (field "name" params).bind nonEmptyString = some name → NameTaken bridge name

/-- The condition on a step: nothing disturbs the session, and the name is one the contract takes. -/
def StepTaken (session : McpSession) (s : McpState) (label : McpLabel) : Prop :=
  Undisturbed session s label ∧ CallsTaken s label

/-! ## What is claimed of a session -/

/-- The mediated call a request is, from the moment the turn has taken it. -/
def McpRequest.call (r : McpRequest) : Option ℕ :=
  match r.stage with
  | .calling _ i | .answered (some i) _ | .thrown (some i) => some i
  | .listing | .answered none _ | .thrown none => none

/-- The turn has the request as this call. -/
def SentAs (s : McpState) (r : McpRequest) (c : MediatedCall) : Prop :=
  ∃ bridge callId, s.bridge = some bridge ∧ c.step = none ∧
    toolCallSchema (McpState.toolCall bridge r (exposedAs bridge r.name) callId) = some c.call

/-- How far a request is: never thrown back, never answered with an error, and answered with what its
call completed with. -/
def InBand (s : McpState) (r : McpRequest) : Prop :=
  match r.stage with
  | .listing => True
  | .calling _ i => ∃ c, s.turn.ledger.calls[i]? = some c ∧ SentAs s r c
  | .answered call response => ∃ i c result body, call = some i ∧
      s.turn.ledger.calls[i]? = some c ∧ SentAs s r c ∧ c.outcome = some result ∧
      response = .success r.id body ∧
      field "isError" body = some (.bool (result.status ≠ .succeeded))
  | .thrown _ => False

/-- The steps of one request, when its call is answered by these surroundings. -/
inductive OwnStep (surroundings : (o : KernelOp) → o.Answer) (k : ℕ) (callId now : JsString) :
    McpLabel → Prop
  | forward : OwnStep surroundings k callId now (.forward k callId now)
  | call (i : ℕ) (event : CallEvent) (h : Drives surroundings event) :
      OwnStep surroundings k callId now (.turn (.call i event))
  | respond : OwnStep surroundings k callId now (.respond k)

/-- The identifier of a `tools/call` that arrives. -/
def receivedId : McpLabel → Option JsonRpcId
  | .receive message => (toolsCall message).map Prod.fst
  | _ => none

/-- The request can be seen to its answer, whatever its call's surroundings are. -/
def CanBeAnswered (session : McpSession) (s : McpState) (k : ℕ) (r : McpRequest) : Prop :=
  ∀ surroundings callId now, Accepts surroundings → identifierSchema callId = some callId →
    timestampSchema now = some now → ∃ labels s', (∀ l ∈ labels, OwnStep surroundings k callId now l) ∧
      StepsMeet (mcpStep session) (StepTaken session) s labels ∧
      run (mcpStep session) s labels = some s' ∧
      ∃ r' call response, s'.requests[k]? = some r' ∧ r'.id = r.id ∧ r'.stage = .answered call response

/-- **Recorded, and answered in band.** -/
structure AnsweredInBand (session : McpSession) (labels : List McpLabel) (s : McpState) : Prop where
  /-- The requests are the calls that came in, in their order, under their ids. -/
  received : s.requests.map McpRequest.id = labels.filterMap receivedId
  inBand : ∀ r ∈ s.requests, InBand s r
  /-- No two requests are one call of the turn. -/
  owned : (s.requests.filterMap McpRequest.call).Nodup
  /-- The turn's calls are what its stream says was requested, one for one and in order. -/
  requested : s.turn.events.filterMap requestedId = s.turn.ledger.calls.map MediatedCall.id
  /-- Their outcomes are what it says completed, one for one. -/
  completed : Outcomes s.turn
  answerable : ∀ k r, s.requests[k]? = some r → CanBeAnswered session s k r

/-! ## Small facts -/

/-- **`isError` says whether the call succeeded.** -/
theorem isError_toCallToolResult (result : ToolResult) (published : Option PublishedToolDefinition) :
    field "isError" (toCallToolResult result published) =
      some (.bool (result.status ≠ .succeeded)) := by
  unfold toCallToolResult ToolResult.status
  cases result.outcome with
  | succeeded output =>
      dsimp only
      cases (published.bind PublishedToolDefinition.outputSchema).bind fun _ =>
        if isJsonObject output then some output else none <;> rfl
  | denied error => rfl
  | failed error => rfl

omit [HostPlatform] in
/-- The contract of a tool call takes a name it can trim to one that is neither blank nor long. -/
theorem nameTaken_iff {bridge : OpenToolBridgeOptions} {name : JsString} :
    NameTaken bridge name ↔ (identifierSchema (exposedAs bridge name)).isSome := by
  unfold NameTaken identifierSchema trimmedString
  dsimp only
  split
  · next h => exact iff_of_true h rfl
  · next h => exact iff_of_false h nofun

omit [HostPlatform] in
theorem jsonEntriesSchema_filter {entries parsed : List (JsString × Json)} (p : JsString → Bool)
    (h : jsonEntriesSchema entries = some parsed) :
    (jsonEntriesSchema (entries.filter fun entry => p entry.1)).isSome := by
  induction entries generalizing parsed with
  | nil => rfl
  | cons entry rest ih =>
      obtain ⟨k, v⟩ := entry
      obtain ⟨v', rest', hv, hrest, -⟩ := jsonEntriesSchema_cons h
      rw [List.filter_cons]
      split
      · obtain ⟨kept, hkept⟩ := Option.isSome_iff_exists.mp (ih hrest)
        unfold jsonEntriesSchema
        rw [hv, hkept]
        rfl
      · exact ih hrest

omit [HostPlatform] in
/-- A record that is rebuilt is still a JSON object. -/
theorem jsonObjectSchema_record {v w : Json} (hv : (jsonObjectSchema v).isSome)
    (hw : recordSchema v = some w) : (jsonObjectSchema w).isSome := by
  cases v with
  | obj entries =>
      cases hw
      obtain ⟨parsed, hparsed⟩ := Option.isSome_iff_exists.mp hv
      obtain ⟨entries', hentries, -⟩ := Option.map_eq_some_iff.mp hparsed
      show ((jsonEntriesSchema _).map Json.obj).isSome
      rw [Option.isSome_map]
      exact jsonEntriesSchema_filter (fun k => k ≠ "__proto__") hentries
  | _ => cases hw

omit [HostPlatform] in
theorem jsonObjectSchema_isRecord {v : Json} (h : (jsonObjectSchema v).isSome) :
    ∃ w, recordSchema v = some w := by
  cases v with
  | obj entries => exact ⟨_, rfl⟩
  | _ => cases h

omit [HostPlatform] in
/-- Parameters that carry a call are read as one, with an object of arguments. -/
theorem callToolParamsSchema_carries {params : Json} (h : CarriesCall params)
    (hextra : ∀ extra, field "_meta" params = some extra → (recordSchema extra).isSome) :
    ∃ call, callToolParamsSchema params = some call ∧
      (field "name" params).bind nonEmptyString = some call.name ∧
      (jsonObjectSchema (call.arguments.getD (.obj []))).isSome := by
  obtain ⟨name, hname⟩ := Option.isSome_iff_exists.mp h.1
  have hmeta : ∃ extra, optionalField recordSchema "_meta" params = some extra := by
    unfold optionalField
    split
    · exact ⟨_, rfl⟩
    · next v hv =>
        obtain ⟨w, hw⟩ := Option.isSome_iff_exists.mp (hextra v hv)
        rw [hw]
        exact ⟨_, rfl⟩
  have harguments : ∃ arguments, optionalField recordSchema "arguments" params = some arguments ∧
      (jsonObjectSchema (arguments.getD (.obj []))).isSome := by
    unfold optionalField
    split
    · exact ⟨_, rfl, rfl⟩
    · next v hv =>
        have hobject := h.2 v hv
        obtain ⟨w, hw⟩ := jsonObjectSchema_isRecord hobject
        rw [hw]
        exact ⟨_, rfl, jsonObjectSchema_record hobject hw⟩
  obtain ⟨extra, hextra⟩ := hmeta
  obtain ⟨arguments, hargs, hobject⟩ := harguments
  refine ⟨{ name, arguments }, ?_, hname, hobject⟩
  unfold callToolParamsSchema
  rw [hname, hargs, hextra]
  rfl

/-! ## The invariant -/

/-- What the bridge was opened with. -/
structure Opened (session : McpSession) (s : McpState) (bridge : OpenToolBridgeOptions) : Prop where
  tools : bridge.tools.Sublist session.turn.catalogue.definitions
  traceId : bridge.traceId = session.turn.request.context.traceId
  now : timestampSchema bridge.now = some bridge.now
  started : s.turn.pluginStarted = true

/-- A request that can be seen to its answer, or has been. -/
def Served (s : McpState) (r : McpRequest) : Prop :=
  match r.stage with
  | .listing => (∃ bridge, s.bridge = some bridge ∧ NameTaken bridge r.name) ∧
      (jsonObjectSchema r.arguments).isSome
  | .calling _ i => ∃ c, s.turn.ledger.calls[i]? = some c ∧ SentAs s r c
  | .answered call response => ∃ i c result body, call = some i ∧
      s.turn.ledger.calls[i]? = some c ∧ SentAs s r c ∧ c.answer = some (.ok result) ∧
      response = .success r.id body ∧
      field "isError" body = some (.bool (result.status ≠ .succeeded))
  | .thrown _ => False

/-- **The invariant of a session that nothing disturbs.** -/
structure Tracked (session : McpSession) (s : McpState) : Prop where
  reached : ∃ labels, run (executorStep session.turn) (.initial session.turn) labels = some s.turn
  live : s.Live
  offered : s.turn.effectiveTools.Sublist session.turn.catalogue.definitions
  unfailing : ∀ c ∈ s.turn.ledger.calls, c.Unfailing
  handedOver : ∀ c ∈ s.turn.ledger.calls, c.HandedOver
  outcomes : Outcomes s.turn
  opened : ∀ bridge, s.bridge = some bridge → Opened session s bridge
  unopened : s.bridge = none → s.requests = []
  owned : (s.requests.filterMap McpRequest.call).Nodup
  served : ∀ r ∈ s.requests, Served s r

section Invariant

variable {session : McpSession} {s s' : McpState}

theorem SentAs.calls {r : McpRequest} {c c' : MediatedCall} (h : SentAs s r c)
    (hbridge : s'.bridge = s.bridge) (hcall : c'.call = c.call) (hstep : c'.step = c.step) :
    SentAs s' r c' := by
  obtain ⟨bridge, callId, hopen, hnone, hparsed⟩ := h
  exact ⟨bridge, callId, hbridge.trans hopen, hstep.trans hnone, hcall ▸ hparsed⟩

/-- What a request has come to outlasts every step of the turn. -/
theorem Served.kept {r : McpRequest} (h : Served s r) (hbridge : s'.bridge = s.bridge)
    (hkept : CallsKept s.turn s'.turn) : Served s' r := by
  unfold Served at h ⊢
  split at h
  · rw [hbridge]
    exact h
  · obtain ⟨c, hc, hsent⟩ := h
    obtain ⟨c', hc', hcall, hstep, -⟩ := hkept _ c hc
    exact ⟨c', hc', hsent.calls hbridge hcall hstep⟩
  · obtain ⟨i, c, result, body, hi, hc, hsent, hanswer, hresponse⟩ := h
    obtain ⟨c', hc', hcall, hstep, hfinal⟩ := hkept _ c hc
    exact ⟨i, c', result, body, hi, hc', hsent.calls hbridge hcall hstep, hfinal result hanswer,
      hresponse⟩
  · exact h

/-- A request that has a call has one the turn knows. -/
theorem Served.call_lt {r : McpRequest} (h : Served s r) {i : ℕ} (hi : r.call = some i) :
    i < s.turn.ledger.calls.length := by
  unfold Served at h
  unfold McpRequest.call at hi
  cases hstage : r.stage with
  | listing =>
      rw [hstage] at hi
      cases hi
  | calling tool j =>
      rw [hstage] at h hi
      cases hi
      obtain ⟨c, hc, -⟩ := h
      exact (List.getElem?_eq_some_iff.mp hc).1
  | answered call response =>
      rw [hstage] at h hi
      obtain ⟨j, c, result, body, rfl, hc, -⟩ := h
      cases hi
      exact (List.getElem?_eq_some_iff.mp hc).1
  | thrown call =>
      rw [hstage] at h
      exact h.elim

theorem executorStep_reached {t : TurnState} {label : TurnLabel}
    (h : ∃ labels, run (executorStep session.turn) (.initial session.turn) labels = some s.turn)
    (hstep : executorStep session.turn s.turn label = some t) :
    ∃ labels, run (executorStep session.turn) (.initial session.turn) labels = some t := by
  obtain ⟨labels, hrun⟩ := h
  exact ⟨labels ++ [label], run_snoc.mpr ⟨s.turn, hrun, hstep⟩⟩

/-- **A step of the turn.** -/
theorem Tracked.turn (h : Tracked session s) {t : TurnState} {label : TurnLabel}
    (hstep : executorStep session.turn s.turn label = some t) (hlabel : Untroubled label)
    (hactive : t.hostActive = true) : Tracked session { s with turn := t } where
  reached := executorStep_reached h.reached hstep
  live := ⟨hactive, h.live.2⟩
  offered := executorStep_offered h.offered hstep
  unfailing := executorStep_unfailing h.live.1 hlabel h.unfailing hstep
  handedOver := executorStep_handedOver h.handedOver hstep
  outcomes := executorStep_outcomes h.outcomes hstep
  opened bridge hbridge := by
    obtain ⟨htools, htrace, hnow, hstarted⟩ := h.opened bridge hbridge
    exact ⟨htools, htrace, hnow, executorStep_started hstarted hstep⟩
  unopened := h.unopened
  owned := h.owned
  served r hr := (h.served r hr).kept rfl (executorStep_kept hstep)

/-- One request is further on. -/
theorem Tracked.setRequest (h : Tracked session s) {k : ℕ} {r r' : McpRequest}
    (hk : s.requests[k]? = some r)
    (hcall : r'.call = r.call ∨ r.call = none ∧ ∃ i, r'.call = some i ∧
      ∀ other ∈ s.requests, other.call ≠ some i) (hserved : Served s r') :
    Tracked session (s.setRequest k r') where
  reached := h.reached
  live := h.live
  offered := h.offered
  unfailing := h.unfailing
  handedOver := h.handedOver
  outcomes := h.outcomes
  opened bridge hbridge := by
    obtain ⟨htools, htrace, hnow, hstarted⟩ := h.opened bridge hbridge
    exact ⟨htools, htrace, hnow, hstarted⟩
  unopened hnone := by
    rw [h.unopened hnone] at hk
    cases hk
  owned := by
    show ((s.requests.set k r').filterMap McpRequest.call).Nodup
    rcases hcall with hsame | ⟨hnone, i, hi, hfresh⟩
    · rw [filterMap_set_same hk hsame]
      exact h.owned
    · rw [(filterMap_set_perm hk hnone hi).nodup_iff]
      refine List.Nodup.append h.owned (List.nodup_singleton i) fun j hj hji => ?_
      obtain ⟨other, hother, hothercall⟩ := List.mem_filterMap.mp hj
      rw [List.mem_singleton.mp hji] at hothercall
      exact hfresh other hother hothercall
  served other hother := by
    rcases List.mem_or_eq_of_mem_set hother with hother | rfl
    · exact h.served other hother
    · exact hserved

/-! ## A message -/

/-- What no message but a `tools/call` changes. -/
structure Unmoved (s s' : McpState) : Prop where
  turn : s'.turn = s.turn
  bridge : s'.bridge = s.bridge
  isOpen : s'.isOpen = s.isOpen
  requests : s'.requests = s.requests

theorem Tracked.unmoved (h : Tracked session s) (hs : Unmoved s s') : Tracked session s' where
  reached := hs.turn ▸ h.reached
  live := ⟨hs.turn ▸ h.live.1, hs.isOpen.trans h.live.2⟩
  offered := hs.turn ▸ h.offered
  unfailing := hs.turn ▸ h.unfailing
  handedOver := hs.turn ▸ h.handedOver
  outcomes := hs.turn ▸ h.outcomes
  opened bridge hbridge := by
    obtain ⟨htools, htrace, hnow, hstarted⟩ := h.opened bridge (hs.bridge ▸ hbridge)
    exact ⟨htools, htrace, hnow, hs.turn ▸ hstarted⟩
  unopened hnone := hs.requests.trans (h.unopened (hs.bridge ▸ hnone))
  owned := hs.requests ▸ h.owned
  served r hr := (h.served r (hs.requests ▸ hr)).kept hs.bridge (.of_eq (by rw [hs.turn]))

variable {bridge : OpenToolBridgeOptions} {message : Json}

theorem handle_other (h : toolsCall message = none) :
    Unmoved s (s.handle session bridge message) := by
  unfold McpState.handle
  cases hrequest : jsonRpcRequestSchema message with
  | some request =>
      dsimp only
      have hmethod : ¬ request.method = "tools/call" := by
        intro hcall
        unfold toolsCall at h
        rw [hrequest, Option.bind_some, if_pos hcall] at h
        cases h
      unfold McpState.dispatch
      split
      · exact ⟨rfl, rfl, rfl, rfl⟩
      split
      · exact ⟨rfl, rfl, rfl, rfl⟩
      split
      · unfold McpState.listTools
        split
        · split <;> exact ⟨rfl, rfl, rfl, rfl⟩
        · exact ⟨rfl, rfl, rfl, rfl⟩
      -- the method is no `tools/call`, so it is none this server knows
      exact ⟨rfl, rfl, rfl, rfl⟩
  | none =>
      dsimp only
      cases jsonRpcNotificationSchema message with
      | some method =>
          dsimp only
          split <;> exact ⟨rfl, rfl, rfl, rfl⟩
      | none => exact ⟨rfl, rfl, rfl, rfl⟩

theorem handle_toolsCall {id : JsonRpcId} {params : Option Json}
    (h : toolsCall message = some (id, params)) :
    s.handle session bridge message = s.callTool id params := by
  unfold toolsCall at h
  obtain ⟨request, hrequest, hcall⟩ := Option.bind_eq_some_iff.mp h
  split at hcall
  · next hmethod =>
      cases hcall
      unfold McpState.handle McpState.dispatch
      rw [hrequest]
      dsimp only
      rw [hmethod, if_neg (by decide), if_neg (by decide), if_neg (by decide), if_pos rfl]
  · cases hcall

/-- **A `tools/call` is taken up.** -/
theorem Tracked.receive (h : Tracked session s) (hbridge : s.bridge = some bridge)
    {id : JsonRpcId} {params : Json} (hcarries : CarriesCall params)
    (hextra : ∀ extra, field "_meta" params = some extra → (recordSchema extra).isSome)
    (htaken : ∀ name, (field "name" params).bind nonEmptyString = some name →
      NameTaken bridge name) :
    Tracked session (s.callTool id (some params)) ∧
      (s.callTool id (some params)).requests.map McpRequest.id = s.requests.map McpRequest.id ++ [id] := by
  obtain ⟨call, hparsed, hname, hobject⟩ := callToolParamsSchema_carries hcarries hextra
  have hcall : s.callTool id (some params) =
      { s with requests := s.requests ++
        [{ id, name := call.name, arguments := call.arguments.getD (.obj []), stage := .listing }] } := by
    unfold McpState.callTool
    rw [Option.bind_some, hparsed]
    dsimp only
    rw [h.live.2]
    rfl
  rw [hcall]
  refine ⟨⟨h.reached, h.live, h.offered, h.unfailing, h.handedOver, h.outcomes, ?_, ?_, ?_, ?_⟩, ?_⟩
  · intro other hother
    obtain ⟨htools, htrace, hnow, hstarted⟩ := h.opened other hother
    exact ⟨htools, htrace, hnow, hstarted⟩
  · intro hnone
    rw [show s.bridge = none from hnone] at hbridge
    cases hbridge
  · show ((s.requests ++ [_]).filterMap McpRequest.call).Nodup
    rw [List.filterMap_append]
    exact (List.append_nil _).symm ▸ h.owned
  · intro r hr
    rcases List.mem_append.mp hr with hr | hr
    · exact h.served r hr
    · rw [List.mem_singleton.mp hr]
      exact ⟨⟨bridge, hbridge, htaken _ hname⟩, hobject⟩
  · exact List.map_append

/-! ## A call goes to the turn, and comes back -/

/-- A bridge's catalogue can be published. -/
theorem Opened.catalog {candidates : List CandidateHandler}
    (hregistered : ToolRegistry.empty.registerAll candidates = .ok session.turn.catalogue)
    (h : Opened session s bridge) : ∃ tools, bridge.catalog = some tools := by
  have hregistrable := ToolRegistry.registerAll_registrable
    (fun handler hhandler => absurd hhandler List.not_mem_nil) hregistered
  refine publishToolCatalog_registrable (fun definition hdefinition => ?_) ?_
  · obtain ⟨handler, hhandler, rfl⟩ := List.mem_map.mp (mem_definitions.mp (h.tools.subset hdefinition))
    exact hregistrable handler hhandler
  · exact (h.tools.map ToolDefinition.name).nodup session.turn.catalogue.definitions_nodup

/-- The call a request is sent as is one the contract takes. -/
theorem toolCall_parses (htrace : identifierSchema session.turn.request.context.traceId =
      some session.turn.request.context.traceId) (h : Opened session s bridge) {r : McpRequest}
    (hname : NameTaken bridge r.name) (harguments : (jsonObjectSchema r.arguments).isSome)
    {callId : JsString} (hcallId : identifierSchema callId = some callId) :
    ∃ call, toolCallSchema (McpState.toolCall bridge r (exposedAs bridge r.name) callId) =
      some call := by
  obtain ⟨tool, htool⟩ := Option.isSome_iff_exists.mp (nameTaken_iff.mp hname)
  obtain ⟨arguments, hobject⟩ := Option.isSome_iff_exists.mp harguments
  refine ⟨⟨callId, tool, arguments, bridge.traceId, bridge.now⟩, ?_⟩
  unfold toolCallSchema McpState.toolCall
  dsimp only
  rw [hcallId, htool, hobject, h.now, h.traceId, htrace]
  rfl

/-- **A request whose name is taken goes to the turn.** -/
theorem Tracked.forwards {candidates : List CandidateHandler}
    (hregistered : ToolRegistry.empty.registerAll candidates = .ok session.turn.catalogue)
    (htrace : identifierSchema session.turn.request.context.traceId =
      some session.turn.request.context.traceId) (h : Tracked session s) {k : ℕ} {r : McpRequest}
    (hk : s.requests[k]? = some r) (hstage : r.stage = .listing) {callId now : JsString}
    (hcallId : identifierSchema callId = some callId) (hnow : timestampSchema now = some now) :
    ∃ s' tool i, s.forward session k callId now = some s' ∧ Tracked session s' ∧
      s'.requests = s.requests.set k { r with stage := .calling tool i } := by
  have hserved := h.served r (List.mem_of_getElem? hk)
  unfold Served at hserved
  rw [hstage] at hserved
  obtain ⟨⟨bridge, hbridge, hname⟩, hobject⟩ := hserved
  have hopened := h.opened bridge hbridge
  obtain ⟨tools, htools⟩ := hopened.catalog hregistered
  obtain ⟨call, hcall⟩ := toolCall_parses htrace hopened hname hobject hcallId
  let tool := exposedAs bridge r.name
  let turn := s.turn.requestTool session.turn call none now
  have hresolved : resolveCanonicalName tools r.name = tool := by
    show _ = resolveCanonicalName (bridge.catalog.getD []) r.name
    rw [htools]
    rfl
  -- the turn takes the call
  have hinvoke : executorStep session.turn s.turn
      (.invoke (McpState.toolCall bridge r tool callId) none now) = some turn := by
    show (if s.turn.pluginStarted = true then _ else _) = _
    rw [if_pos hopened.started]
    unfold TurnState.mediateTool
    rw [h.live.1, hcall]
    rfl
  obtain ⟨hactive, c, hcalls, hsame, hnone⟩ :=
    requestTool_adds session.turn s.turn call none now
  have hlength : s.turn.ledger.calls.length < turn.ledger.calls.length := by
    rw [show turn.ledger.calls = _ from hcalls, List.length_append]
    exact Nat.lt_succ_self _
  let s₁ : McpState := { s.noteAlias bridge r.name tool with turn }
  have hforward : s.forward session k callId now = some (s₁.setRequest k
      { r with stage := .calling tool s.turn.ledger.calls.length }) := by
    unfold McpState.forward
    rw [hbridge, hk]
    simp only [Option.bind_eq_bind, Option.bind_some]
    rw [hstage]
    dsimp only
    rw [htools]
    dsimp only
    rw [hresolved, h.live.2, hinvoke]
    rw [if_neg (by decide), Option.bind_some, if_pos hlength]
  have htracked : Tracked session s₁ := by
    refine (h.turn hinvoke hnow (hactive.trans h.live.1)).unmoved ?_
    show Unmoved { s with turn } { s.noteAlias bridge r.name tool with turn }
    unfold McpState.noteAlias
    split <;> exact ⟨rfl, rfl, rfl, rfl⟩
  have hrequests : s₁.requests = s.requests := by
    show (s.noteAlias bridge r.name tool).requests = _
    unfold McpState.noteAlias
    split <;> rfl
  have hbridge' : s₁.bridge = some bridge := by
    refine Eq.trans ?_ hbridge
    show (s.noteAlias bridge r.name tool).bridge = _
    unfold McpState.noteAlias
    split <;> rfl
  refine ⟨_, tool, s.turn.ledger.calls.length, hforward, ?_, ?_⟩
  · refine htracked.setRequest (hrequests ▸ hk) (.inr ⟨?_, _, rfl, fun other hother heq => ?_⟩) ?_
    · rw [McpRequest.call, hstage]
    · have hlt := (h.served other (hrequests ▸ hother)).call_lt heq
      omega
    · refine ⟨c, ?_, bridge, callId, hbridge', hnone, hsame ▸ hcall⟩
      show turn.ledger.calls[_]? = some c
      rw [show turn.ledger.calls = _ from hcalls, List.getElem?_concat_length]
  · show s₁.requests.set k _ = _
    rw [hrequests]

/-- **A call that is back is the answer.** -/
theorem Tracked.responds (h : Tracked session s) {k : ℕ} {r : McpRequest} {tool : JsString} {i : ℕ}
    {c : MediatedCall} {result : ToolResult} (hk : s.requests[k]? = some r)
    (hstage : r.stage = .calling tool i) (hc : s.turn.ledger.calls[i]? = some c)
    (hanswer : c.answer = some (.ok result)) :
    ∃ s' response, s.respond k = some s' ∧ Tracked session s' ∧
      s'.requests = s.requests.set k { r with stage := .answered (some i) response } := by
  have hserved := h.served r (List.mem_of_getElem? hk)
  unfold Served at hserved
  rw [hstage] at hserved
  obtain ⟨c', hc', hsent⟩ := hserved
  cases hc.symm.trans hc'
  obtain ⟨bridge, callId, hbridge, hnone, hparsed⟩ := hsent
  let response := jsonRpcResult r.id (toCallToolResult result
    (bridge.catalog.bind fun tools => tools.find? fun published => published.name = tool))
  have hrespond : s.respond k = some (s.setRequest k
      { r with stage := .answered (some i) response }) := by
    unfold McpState.respond
    rw [hbridge, hk]
    simp only [Option.bind_eq_bind, Option.bind_some]
    rw [hstage]
    dsimp only
    rw [hc, Option.bind_some, hanswer]
    rfl
  refine ⟨_, response, hrespond, h.setRequest hk (.inl ?_) ?_, rfl⟩
  · rw [McpRequest.call, McpRequest.call, hstage]
  · exact ⟨i, c, result, _, rfl, hc, ⟨bridge, callId, hbridge, hnone, hparsed⟩, hanswer, rfl,
      isError_toCallToolResult ..⟩

/-! ## Every step, and every run -/

/-- A session over a registered catalogue, in a turn whose trace has a name. -/
structure WellFounded (session : McpSession) : Prop where
  registered : ∃ candidates, ToolRegistry.empty.registerAll candidates = .ok session.turn.catalogue
  traceId : identifierSchema session.turn.request.context.traceId =
    some session.turn.request.context.traceId

omit [HostPlatform] in
/-- A request keeps its id whatever becomes of it. -/
theorem ids_set {requests : List McpRequest} {k : ℕ} {r : McpRequest} {stage : RequestStage}
    (hk : requests[k]? = some r) :
    (requests.set k { r with stage }).map McpRequest.id = requests.map McpRequest.id :=
  map_set_same hk rfl

/-- **Every step that meets the condition keeps the invariant**, and takes up the `tools/call` it is
about. -/
theorem mcpStep_tracked (hsession : WellFounded session) (h : Tracked session s) {label : McpLabel}
    (hcond : StepTaken session s label) (hstep : mcpStep session s label = some s') :
    Tracked session s' ∧
      s'.requests.map McpRequest.id = s.requests.map McpRequest.id ++ (receivedId label).toList := by
  obtain ⟨hundisturbed, htaken⟩ := hcond
  obtain ⟨candidates, hregistered⟩ := hsession.registered
  have hlive := hundisturbed.live s' hstep
  cases label with
  | turn label =>
      obtain ⟨t, ht, rfl⟩ := Option.map_eq_some_iff.mp hstep
      exact ⟨h.turn ht (hundisturbed.turn label rfl) hlive.1, (List.append_nil _).symm⟩
  | opens now =>
      unfold mcpStep at hstep
      dsimp only at hstep
      split at hstep
      · next hopens =>
          cases hstep
          -- nothing was received before the bridge was open
          have hnone : s.requests = [] := h.unopened (Option.isNone_iff_eq_none.mp hopens.2)
          refine ⟨⟨h.reached, h.live, h.offered, h.unfailing, h.handedOver, h.outcomes, ?_, nofun,
            h.owned, ?_⟩, (List.append_nil _).symm⟩
          · intro bridge hbridge
            cases hbridge
            exact ⟨h.offered, rfl, hundisturbed.opens now rfl, hopens.1⟩
          · intro r hr
            rw [show s.requests = [] from hnone] at hr
            exact absurd hr List.not_mem_nil
      · cases hstep
  | receive message =>
      obtain ⟨bridge, hbridge, rfl⟩ := Option.map_eq_some_iff.mp hstep
      cases hcall : toolsCall message with
      | none =>
          have hother : Unmoved s (s.handle session bridge message) := handle_other hcall
          refine ⟨h.unmoved hother, ?_⟩
          rw [hother.requests, receivedId, hcall]
          exact (List.append_nil _).symm
      | some asked =>
          obtain ⟨id, params⟩ := asked
          obtain ⟨p, rfl, hcarries⟩ := hundisturbed.receive message id params rfl hcall
          obtain ⟨hextra, hname⟩ := htaken message id p bridge rfl hcall hbridge
          rw [handle_toolsCall hcall, receivedId, hcall]
          exact h.receive hbridge hcarries hextra hname
  | forward k callId now =>
      obtain ⟨hcallId, hnow⟩ := hundisturbed.forward k callId now rfl
      obtain ⟨bridge, hbridge, hrest⟩ := Option.bind_eq_some_iff.mp hstep
      obtain ⟨r, hk, hrest⟩ := Option.bind_eq_some_iff.mp hrest
      have hstage : r.stage = .listing := by
        split at hrest
        · next hlisting => exact hlisting
        · cases hrest
      obtain ⟨s₁, tool, i, hforward, htracked, hrequests⟩ :=
        h.forwards hregistered hsession.traceId hk hstage hcallId hnow
      cases hforward.symm.trans hstep
      refine ⟨htracked, ?_⟩
      rw [hrequests, ids_set hk]
      exact (List.append_nil _).symm
  | respond k =>
      obtain ⟨bridge, hbridge, hrest⟩ := Option.bind_eq_some_iff.mp hstep
      obtain ⟨r, hk, hrest⟩ := Option.bind_eq_some_iff.mp hrest
      split at hrest
      · next tool i hstage =>
          obtain ⟨c, hc, hrest⟩ := Option.bind_eq_some_iff.mp hrest
          obtain ⟨settled, hsettled, -⟩ := Option.bind_eq_some_iff.mp hrest
          cases settled with
          | error thrown =>
              -- a throw would be answered by a protocol error, which no call of this turn comes to
              exact absurd hsettled ((h.unfailing c (List.mem_of_getElem? hc)).answer thrown)
          | ok result =>
              obtain ⟨s₁, response, hrespond, htracked, hrequests⟩ := h.responds hk hstage hc hsettled
              cases hrespond.symm.trans hstep
              refine ⟨htracked, ?_⟩
              rw [hrequests, ids_set hk]
              exact (List.append_nil _).symm
      · cases hrest
  | closes =>
      unfold mcpStep at hstep
      dsimp only at hstep
      split at hstep
      · cases hstep
        -- a run that meets the condition stays open
        have hclosed := hlive.2
        simp [McpState.isOpen] at hclosed
      · cases hstep
  | aborts =>
      cases hstep
      have haborted := hlive.2
      simp [McpState.isOpen] at haborted

theorem tracked_initial (session : McpSession) : Tracked session (.initial session) where
  reached := ⟨[], rfl⟩
  live := ⟨rfl, rfl⟩
  offered := List.nil_sublist _
  unfailing _ hc := absurd hc List.not_mem_nil
  handedOver _ hc := absurd hc List.not_mem_nil
  outcomes := .nil
  opened := nofun
  unopened _ := rfl
  owned := List.nodup_nil
  served _ hr := absurd hr List.not_mem_nil

/-- **Every run whose steps meet the condition** keeps the invariant, and has every `tools/call` that
came in. -/
theorem run_tracked (hsession : WellFounded session) {labels : List McpLabel}
    (h : Tracked session s) (hmeet : StepsMeet (mcpStep session) (StepTaken session) s labels)
    (hrun : run (mcpStep session) s labels = some s') :
    Tracked session s' ∧
      s'.requests.map McpRequest.id = s.requests.map McpRequest.id ++ labels.filterMap receivedId := by
  induction labels generalizing s with
  | nil =>
      cases hrun
      exact ⟨h, (List.append_nil _).symm⟩
  | cons label labels ih =>
      obtain ⟨s₁, hfirst, hrest⟩ := run_cons.mp hrun
      obtain ⟨htracked, hids⟩ := mcpStep_tracked hsession h hmeet.1 hfirst
      obtain ⟨hfinal, hrestIds⟩ := ih htracked (hmeet.2 s₁ hfirst) hrest
      refine ⟨hfinal, ?_⟩
      rw [hrestIds, hids, List.append_assoc, List.filterMap_cons]
      cases receivedId label <;> rfl

/-! ## A request is seen to its answer -/

variable {surroundings : (o : KernelOp) → o.Answer} {callId now : JsString}

/-- A step that is no message is about no name. -/
theorem stepTaken_of_live {label : McpLabel}
    (hlive : ∀ s', mcpStep session s label = some s' → s'.Live)
    (hturn : ∀ l, label = .turn l → Untroubled l)
    (hopens : ∀ now, label = .opens now → timestampSchema now = some now)
    (hforward : ∀ k callId now, label = .forward k callId now →
      identifierSchema callId = some callId ∧ timestampSchema now = some now)
    (hreceive : ∀ message, label ≠ .receive message) : StepTaken session s label :=
  ⟨⟨hlive, hturn, hopens, fun message _ _ heq => absurd heq (hreceive message), hforward⟩,
    fun message _ _ _ heq => absurd heq (hreceive message)⟩

/-- The steps of one request meet the condition wherever the invariant holds. -/
theorem ownStep_taken (hsession : WellFounded session) (h : Tracked session s)
    (hsurroundings : Accepts surroundings) (hcallId : identifierSchema callId = some callId)
    (hnow : timestampSchema now = some now) {k : ℕ} {label : McpLabel}
    (hown : OwnStep surroundings k callId now label) : StepTaken session s label := by
  obtain ⟨candidates, hregistered⟩ := hsession.registered
  cases hown with
  | forward =>
      refine stepTaken_of_live (fun s' hstep => ?_) nofun nofun ?_ nofun
      · obtain ⟨bridge, -, hrest⟩ := Option.bind_eq_some_iff.mp hstep
        obtain ⟨r, hk, hrest⟩ := Option.bind_eq_some_iff.mp hrest
        have hstage : r.stage = .listing := by
          split at hrest
          · next hlisting => exact hlisting
          · cases hrest
        obtain ⟨s₁, tool, i, hforward, htracked, -⟩ :=
          h.forwards hregistered hsession.traceId hk hstage hcallId hnow
        cases hforward.symm.trans hstep
        exact htracked.live
      · rintro k callId now ⟨⟩
        exact ⟨hcallId, hnow⟩
  | call i event hdrives =>
      have huntroubled : Untroubled (.call i event) := by
        cases event with
        | kernelAnswers answers =>
            obtain rfl : answers = surroundings := hdrives
            exact hsurroundings
        | _ => trivial
      refine stepTaken_of_live (fun s' hstep => ?_) ?_ nofun nofun nofun
      · obtain ⟨t, ht, rfl⟩ := Option.map_eq_some_iff.mp hstep
        obtain ⟨c, hc, hcall⟩ := Option.bind_eq_some_iff.mp ht
        obtain ⟨t₁, c', rfl, -, hactive, -⟩ :=
          callStep_unfailing h.live.1 huntroubled (h.unfailing c (List.mem_of_getElem? hc)) hcall
        exact ⟨hactive, h.live.2⟩
      · rintro l ⟨⟩
        exact huntroubled
  | respond =>
      refine stepTaken_of_live (fun s' hstep => ?_) nofun nofun nofun nofun
      obtain ⟨bridge, -, hrest⟩ := Option.bind_eq_some_iff.mp hstep
      obtain ⟨r, -, hrest⟩ := Option.bind_eq_some_iff.mp hrest
      split at hrest
      · obtain ⟨c, -, hrest⟩ := Option.bind_eq_some_iff.mp hrest
        obtain ⟨settled, -, hrest⟩ := Option.bind_eq_some_iff.mp hrest
        cases hrest
        exact h.live
      · cases hrest

/-- A run of the turn is a run of the session. -/
theorem run_turn {labels : List TurnLabel} {t : TurnState}
    (h : run (executorStep session.turn) s.turn labels = some t) :
    run (mcpStep session) s (labels.map .turn) = some { s with turn := t } := by
  induction labels generalizing s with
  | nil =>
      cases h
      rfl
  | cons label labels ih =>
      obtain ⟨t₁, hfirst, hrest⟩ := run_cons.mp h
      refine run_cons.mpr ⟨{ s with turn := t₁ }, ?_, ih hrest⟩
      show (executorStep session.turn s.turn label).map _ = _
      rw [hfirst]
      rfl

/-- Some own steps of the request, and it is answered. -/
def SeenThrough (session : McpSession) (surroundings : (o : KernelOp) → o.Answer) (k : ℕ)
    (callId now : JsString) (r : McpRequest) (s : McpState) : Prop :=
  ∃ labels s', (∀ l ∈ labels, OwnStep surroundings k callId now l) ∧
    run (mcpStep session) s labels = some s' ∧
    ∃ r' call response, s'.requests[k]? = some r' ∧ r'.id = r.id ∧ r'.stage = .answered call response

theorem SeenThrough.before {k : ℕ} {r : McpRequest} {labels : List McpLabel}
    (hown : ∀ l ∈ labels, OwnStep surroundings k callId now l)
    (hrun : run (mcpStep session) s labels = some s')
    (h : SeenThrough session surroundings k callId now r s') :
    SeenThrough session surroundings k callId now r s := by
  obtain ⟨later, s'', hlater, hrest, hanswered⟩ := h
  refine ⟨labels ++ later, s'', fun l hl => ?_, run_append.mpr ⟨s', hrun, hrest⟩, hanswered⟩
  rcases List.mem_append.mp hl with hl | hl
  · exact hown l hl
  · exact hlater l hl

/-- The own steps of a request all meet the condition. -/
theorem ownSteps_meet (hsession : WellFounded session) (h : Tracked session s)
    (hsurroundings : Accepts surroundings) (hcallId : identifierSchema callId = some callId)
    (hnow : timestampSchema now = some now) {k : ℕ} {labels : List McpLabel}
    (hown : ∀ l ∈ labels, OwnStep surroundings k callId now l) :
    StepsMeet (mcpStep session) (StepTaken session) s labels :=
  StepsMeet.of_invariant h
    (fun l hl _ hs => ownStep_taken hsession hs hsurroundings hcallId hnow (hown l hl))
    fun _ _ _ hs hcond hstep => (mcpStep_tracked hsession hs hcond hstep).1

/-- The call comes back, and the request is answered. -/
theorem seenThrough_calling (hsession : WellFounded session) (h : Tracked session s)
    (hsurroundings : Accepts surroundings) (hcallId : identifierSchema callId = some callId)
    (hnow : timestampSchema now = some now) {k i : ℕ} {r : McpRequest} {tool : JsString}
    (hk : s.requests[k]? = some r) (hstage : r.stage = .calling tool i) :
    SeenThrough session surroundings k callId now r s := by
  have hserved := h.served r (List.mem_of_getElem? hk)
  unfold Served at hserved
  rw [hstage] at hserved
  obtain ⟨c, hc, -⟩ := hserved
  obtain ⟨events, t, hrun, hdriven, c', result, hc', hanswer⟩ : ComesBack session.turn i surroundings
      s.turn :=
    call_completes hsurroundings h.live.1 hc (h.unfailing c (List.mem_of_getElem? hc))
  have hown : ∀ l ∈ (events.map (TurnLabel.call i)).map McpLabel.turn,
      OwnStep surroundings k callId now l := by
    intro l hl
    obtain ⟨label, hlabel, rfl⟩ := List.mem_map.mp hl
    obtain ⟨event, hevent, rfl⟩ := List.mem_map.mp hlabel
    exact .call i event (hdriven event hevent)
  have hback : run (mcpStep session) s ((events.map (TurnLabel.call i)).map .turn) =
      some { s with turn := t } := run_turn hrun
  have htracked : Tracked session { s with turn := t } :=
    (run_tracked hsession h (ownSteps_meet hsession h hsurroundings hcallId hnow hown) hback).1
  obtain ⟨s₂, response, hrespond, -, hrequests⟩ :=
    htracked.responds (show _ = some r from hk) hstage hc' hanswer
  refine SeenThrough.before hown hback ⟨[.respond k], s₂, ?_, ?_, ?_⟩
  · intro l hl
    rw [List.mem_singleton.mp hl]
    exact .respond
  · exact run_cons.mpr ⟨s₂, hrespond, rfl⟩
  · refine ⟨{ r with stage := .answered (some i) response }, some i, response, ?_, rfl, rfl⟩
    rw [hrequests]
    exact List.getElem?_set_self (List.getElem?_eq_some_iff.mp hk).1

/-- **A request is seen to its answer**, wherever it is. -/
theorem Tracked.seenThrough (hsession : WellFounded session) (h : Tracked session s)
    (hsurroundings : Accepts surroundings) (hcallId : identifierSchema callId = some callId)
    (hnow : timestampSchema now = some now) {k : ℕ} {r : McpRequest}
    (hk : s.requests[k]? = some r) : SeenThrough session surroundings k callId now r s := by
  have hserved := h.served r (List.mem_of_getElem? hk)
  cases hstage : r.stage with
  | listing =>
      obtain ⟨candidates, hregistered⟩ := hsession.registered
      obtain ⟨s₁, tool, i, hforward, htracked, hrequests⟩ :=
        h.forwards hregistered hsession.traceId hk hstage hcallId hnow
      have hk₁ : s₁.requests[k]? = some { r with stage := .calling tool i } := by
        rw [hrequests]
        exact List.getElem?_set_self (List.getElem?_eq_some_iff.mp hk).1
      have hown : ∀ l ∈ [McpLabel.forward k callId now], OwnStep surroundings k callId now l := by
        intro l hl
        rw [List.mem_singleton.mp hl]
        exact .forward
      have hthrough : SeenThrough session surroundings k callId now
          { r with stage := .calling tool i } s₁ :=
        seenThrough_calling hsession htracked hsurroundings hcallId hnow hk₁ rfl
      exact SeenThrough.before hown (run_cons.mpr ⟨s₁, hforward, rfl⟩) hthrough
  | calling tool i =>
      exact seenThrough_calling hsession h hsurroundings hcallId hnow hk hstage
  | answered call response =>
      exact ⟨[], s, fun _ hl => absurd hl List.not_mem_nil, rfl, r, call, response, hk, rfl, hstage⟩
  | thrown call =>
      unfold Served at hserved
      rw [hstage] at hserved
      exact hserved.elim

theorem Served.inBand (h : Tracked session s) {r : McpRequest} (hserved : Served s r) :
    InBand s r := by
  unfold Served at hserved
  unfold InBand
  cases hstage : r.stage with
  | listing => trivial
  | calling tool i =>
      rw [hstage] at hserved
      exact hserved
  | answered call response =>
      rw [hstage] at hserved
      obtain ⟨i, c, result, body, hi, hc, hsent, hanswer, hresponse⟩ := hserved
      exact ⟨i, c, result, body, hi, hc, hsent,
        (h.handedOver c (List.mem_of_getElem? hc)).outcome hanswer, hresponse⟩
  | thrown call =>
      rw [hstage] at hserved
      exact hserved.elim

/-- A call under a name that is not taken is no call to the contract. -/
theorem toolCallSchema_untaken {bridge : OpenToolBridgeOptions} {r : McpRequest}
    {tools : List PublishedToolDefinition} {callId : JsString} (htools : bridge.catalog = some tools)
    (hname : ¬ NameTaken bridge r.name) :
    toolCallSchema (McpState.toolCall bridge r (resolveCanonicalName tools r.name) callId) = none := by
  have hexposed : exposedAs bridge r.name = resolveCanonicalName tools r.name := by
    unfold exposedAs
    rw [htools]
    rfl
  have hidentifier : identifierSchema (resolveCanonicalName tools r.name) = none := by
    rw [← hexposed]
    exact Option.not_isSome_iff_eq_none.mp fun h => hname (nameTaken_iff.mpr h)
  unfold toolCallSchema McpState.toolCall
  dsimp only
  rw [hidentifier]
  cases identifierSchema callId <;> rfl

/-- The turn throws such a call back, and is what it was. -/
theorem invoke_unread {turn : Turn} {t t' : TurnState} {call : ToolCall} {now : JsString}
    (hactive : t.hostActive = true) (hnone : toolCallSchema call = none)
    (h : executorStep turn t (.invoke call none now) = some t') : t' = t := by
  unfold executorStep at h
  dsimp only at h
  split at h
  · cases h
    unfold TurnState.mediateTool
    rw [hactive, hnone]
    rfl
  · cases h

end Invariant

/-! ## The claim -/

/-- **Every tool call is recorded and answered in band**, in every state of every run whose requests
carry a name the contract of a tool call takes. -/
theorem tool_calls_answered_in_band {session : McpSession} {labels : List McpLabel} {s : McpState}
    (hsession : WellFounded session)
    (hmeet : StepsMeet (mcpStep session) (StepTaken session) (.initial session) labels)
    (hrun : run (mcpStep session) (.initial session) labels = some s) :
    AnsweredInBand session labels s := by
  obtain ⟨htracked, hids⟩ := run_tracked hsession (tracked_initial session) hmeet hrun
  obtain ⟨turnLabels, hturn⟩ := htracked.reached
  refine ⟨hids, fun r hr => (htracked.served r hr).inBand htracked, htracked.owned,
    (event_stream_well_formed hturn).requested, htracked.outcomes, ?_⟩
  intro k r hk surroundings callId now hsurroundings hcallId hnow
  obtain ⟨later, s', hown, hlater, hanswered⟩ :=
    htracked.seenThrough hsession hsurroundings hcallId hnow hk
  exact ⟨later, s', hown, ownSteps_meet hsession htracked hsurroundings hcallId hnow hown, hlater,
    hanswered⟩

/-- **A name the contract does not take leaves nothing**: no event, no call, and a transport fault
for an answer. -/
theorem untaken_name_leaves_nothing {session : McpSession} {s s' : McpState} {k : ℕ}
    {r : McpRequest} {bridge : OpenToolBridgeOptions} {callId now : JsString}
    (hlive : s.Live) (hbridge : s.bridge = some bridge) (hk : s.requests[k]? = some r)
    (hname : ¬ NameTaken bridge r.name) (hstep : mcpStep session s (.forward k callId now) = some s') :
    s'.turn = s.turn ∧ s'.requests = s.requests.set k
      { r with stage := .answered none (McpState.internalError r.id) } := by
  have hfails : s.fails r.id none = .answered none (McpState.internalError r.id) := by
    have hopen := hlive.2
    simp only [McpState.isOpen, Bool.and_eq_true, Bool.not_eq_true'] at hopen
    unfold McpState.fails
    rw [hopen.1]
    rfl
  replace hstep : s.forward session k callId now = some s' := hstep
  unfold McpState.forward at hstep
  rw [hbridge, hk] at hstep
  simp only [Option.bind_eq_bind, Option.bind_some] at hstep
  split at hstep
  · cases htools : bridge.catalog with
    | none =>
        rw [htools] at hstep
        cases hstep
        exact ⟨rfl, by rw [← hfails]; rfl⟩
    | some tools =>
        rw [htools] at hstep
        dsimp only at hstep
        rw [hlive.2, if_neg (by decide)] at hstep
        obtain ⟨t, ht, hstep⟩ := Option.bind_eq_some_iff.mp hstep
        obtain rfl := invoke_unread hlive.1 (toolCallSchema_untaken htools hname) ht
        cases hstep
        refine ⟨rfl, ?_⟩
        rw [if_neg (lt_irrefl _), hfails]
        show (s.noteAlias bridge r.name _).requests.set k _ = _
        unfold McpState.noteAlias
        split <;> rfl
  · cases hstep

end Session

/-! ## Sessions -/

namespace Sample

open SharedOS.Kernel.Sample (reader)

/-- A session over a turn with one tool. -/
def session : McpSession where
  turn := Runtime.Sample.turn reader
  server := {}

/-- An instant. -/
def instant : JsString := "2026-03-01T00:00:00Z"

/-- A `tools/call` for a name, without arguments. -/
def calling (name : JsString) : Json :=
  .obj [("jsonrpc", .str "2.0"), ("id", .num (.finite 1)), ("method", .str "tools/call"),
    ("params", .obj [("name", .str name), ("arguments", .obj [])])]

/-- The turn runs, the bridge is open, and a call is received and goes to the turn. -/
def called (name : JsString) : List McpLabel :=
  [.turn (.start none), .turn (.opened (.ok ())), .turn (.admitted (.ok none)),
    .turn (.reached (.ok ())), .turn (.listed (.ok fun _ => true)), .opens instant,
    .receive (calling name), .forward 0 "call" instant]

/-- Surroundings whose sink accepts every write, and whose handler answers. -/
def accepting : (o : KernelOp) → o.Answer
  | .record _ => .fulfilled ()
  | .invokeHandler _ context call => .returned (some
      { callId := call.id, tool := call.tool, completedAt := context.now,
        outcome := .succeeded (.str "text"), metadata := none })
  | o => Kernel.Sample.surroundings o

theorem accepting_accepts : Accepts accepting where
  record _ := rfl
  handler _ _ _ h := by cases h

/-- A call, run to its answer. -/
def answered (name : JsString) : List McpLabel :=
  called name ++ List.replicate 16 (.turn (.call 0 (.kernelAnswers accepting))) ++
    [.turn (.call 0 .kernelSettles), .turn (.call 0 .accounts), .turn (.call 0 .delivers), .respond 0]

open scoped SharedOS.Foundation.Reference in
theorem wellFounded : WellFounded session where
  registered :=
    ⟨[{ definition := some reader.definition, resolvesRequirement := false, implementation := 0 }],
      rfl⟩
  traceId := by decide +kernel

/-- Whether the turn and the bridge stay open. -/
def staysLive [HostPlatform] (s : McpState) (label : McpLabel) : Bool :=
  (mcpStep session s label).all fun s' => s'.turn.hostActive && s'.isOpen

/-- Whether the name is taken, where it comes in. -/
def takesName [HostPlatform] (name : JsString) (s : McpState) : McpLabel → Bool
  | .receive _ => s.bridge.all fun bridge => decide (NameTaken bridge name)
  | _ => true

theorem toolsCall_calling (name : JsString) : toolsCall (calling name) =
    some (.num (.finite 1), some (.obj [("name", .str name), ("arguments", .obj [])])) := rfl

/-- What the labels of these sessions say. -/
def Spoken (name : JsString) : McpLabel → Prop
  | .turn (.call _ (.kernelAnswers surroundings)) => surroundings = accepting
  | .turn (.invoke ..) => False
  | .opens now => now = instant
  | .receive message => message = calling name
  | .forward _ callId now => callId = "call" ∧ now = instant
  | _ => True

theorem spoken_called (name : JsString) : ∀ label ∈ called name, Spoken name label := by
  simp [called, Spoken]

theorem spoken_answered (name : JsString) : ∀ label ∈ answered name, Spoken name label := by
  intro label hlabel
  unfold answered at hlabel
  rw [List.mem_append, List.mem_append, List.mem_replicate] at hlabel
  rcases hlabel with (hcalled | ⟨-, rfl⟩) | hback
  · exact spoken_called name label hcalled
  · rfl
  · simp only [List.mem_cons, List.not_mem_nil, or_false] at hback
    rcases hback with rfl | rfl | rfl | rfl <;> trivial

open scoped SharedOS.Foundation.Reference in
/-- Nothing disturbs a step of these sessions that leaves the turn and the bridge open. -/
theorem undisturbed {name : JsString} (hname : 1 ≤ name.length) {label : McpLabel}
    (hlabel : Spoken name label) {s : McpState} (hlive : staysLive s label = true) :
    Undisturbed session s label := by
  have hstays : ∀ s', mcpStep session s label = some s' → s'.Live := by
    intro s' hstep
    unfold staysLive at hlive
    rw [hstep] at hlive
    exact Bool.and_eq_true_iff.mp hlive
  refine ⟨hstays, ?_, ?_, ?_, ?_⟩
  · rintro l rfl
    cases l with
    | call i event =>
        cases event with
        | kernelAnswers surroundings =>
            obtain rfl : surroundings = accepting := hlabel
            exact accepting_accepts
        | _ => exact True.intro
    | invoke call step now => exact False.elim hlabel
    | _ => exact True.intro
  · rintro now rfl
    obtain rfl : now = instant := hlabel
    decide +kernel
  · rintro message id params rfl hcall
    obtain rfl : message = calling name := hlabel
    cases (toolsCall_calling name).symm.trans hcall
    refine ⟨_, rfl, ?_, ?_⟩
    · show (if 1 ≤ name.length then some name else none).isSome = true
      rw [if_pos hname]
      rfl
    · rintro arguments ⟨⟩
      rfl
  · rintro k callId now rfl
    obtain ⟨rfl, rfl⟩ : callId = "call" ∧ now = instant := hlabel
    exact ⟨by decide +kernel, by decide +kernel⟩

theorem callsTaken [HostPlatform] {name : JsString} (hname : 1 ≤ name.length) {label : McpLabel}
    (hlabel : Spoken name label) {s : McpState} (htakes : takesName name s label = true) :
    CallsTaken s label := by
  rintro message id params bridge rfl hcall hbridge
  obtain rfl : message = calling name := hlabel
  cases (toolsCall_calling name).symm.trans hcall
  refine ⟨fun extra hextra => (by cases hextra), fun asked hasked => ?_⟩
  have hsame : (if 1 ≤ name.length then some name else none) = some asked := hasked
  rw [if_pos hname] at hsame
  cases hsame
  unfold takesName at htakes
  rw [hbridge] at htakes
  exact of_decide_eq_true htakes

end Sample

open scoped SharedOS.Foundation.Reference in
theorem untaken_name_leaves_nothing_blank : ∃ s s' r,
    run (mcpStep Sample.session) (.initial Sample.session) (Sample.called " ").dropLast = some s ∧
      s.requests = [r] ∧ mcpStep Sample.session s (.forward 0 "call" Sample.instant) = some s' ∧
      s'.turn = s.turn ∧
      s'.requests = [{ r with stage := .answered none (McpState.internalError r.id) }] := by
  obtain ⟨s, s', r, bridge, hrun, hrequests, hstep, hlive, hbridge, hname⟩ : ∃ s s' r bridge,
      run (mcpStep Sample.session) (.initial Sample.session) (Sample.called " ").dropLast = some s ∧
        s.requests = [r] ∧ mcpStep Sample.session s (.forward 0 "call" Sample.instant) = some s' ∧
        s.Live ∧ s.bridge = some bridge ∧ ¬ NameTaken bridge r.name :=
    ⟨_, _, _, _, rfl, rfl, rfl, ⟨rfl, rfl⟩, rfl, by decide +kernel⟩
  have hk : s.requests[0]? = some r := by rw [hrequests]; rfl
  obtain ⟨hturn, hanswered⟩ := untaken_name_leaves_nothing hlive hbridge hk hname hstep
  refine ⟨s, s', r, hrun, hrequests, hstep, hturn, ?_⟩
  rw [hanswered, hrequests]
  rfl

open scoped SharedOS.Foundation.Reference in
theorem tool_calls_answered_in_band_read :
    ∃ s, run (mcpStep Sample.session) (.initial Sample.session) (Sample.answered "files_read") = some s ∧
      s.requests.map McpRequest.call = [some 0] ∧
      AnsweredInBand Sample.session (Sample.answered "files_read") s := by
  have hmeet : StepsMeet (mcpStep Sample.session) (StepTaken Sample.session)
      (.initial Sample.session) (Sample.answered "files_read") := by
    refine StepsMeet.of_pass (show stepsPass (mcpStep Sample.session) (fun s label =>
      Sample.staysLive s label && Sample.takesName "files_read" s label) _ _ = true from rfl) ?_
    intro label hlabel s hpass
    obtain ⟨hlive, htakes⟩ := Bool.and_eq_true_iff.mp hpass
    have hspoken := Sample.spoken_answered _ label hlabel
    exact ⟨Sample.undisturbed (by decide) hspoken hlive, Sample.callsTaken (by decide) hspoken htakes⟩
  exact ⟨_, rfl, rfl, tool_calls_answered_in_band Sample.wellFounded hmeet rfl⟩

open scoped SharedOS.Foundation.Reference in
/-- A blank name is answered as a transport fault, and the turn has nothing of it. -/
theorem blank_name_leaves_nothing :
    WellFounded Sample.session ∧
      StepsMeet (mcpStep Sample.session) (Undisturbed Sample.session) (.initial Sample.session)
        (Sample.called " ") ∧
      ∃ s r, run (mcpStep Sample.session) (.initial Sample.session) (Sample.called " ") = some s ∧
        s.requests = [r] ∧ r.stage = .answered none (McpState.internalError r.id) ∧
        s.turn.events.filterMap requestedId = [] ∧ ¬ InBand s r := by
  refine ⟨Sample.wellFounded, ?_, _, _, rfl, rfl, rfl, rfl, ?_⟩
  · refine StepsMeet.of_pass (show stepsPass (mcpStep Sample.session) Sample.staysLive _ _ = true
      from rfl) fun label hlabel s hlive => ?_
    exact Sample.undisturbed (by decide) (Sample.spoken_called " " label hlabel) hlive
  · rintro ⟨i, c, result, body, hnone, -⟩
    cases hnone

end SharedOS.Mcp
