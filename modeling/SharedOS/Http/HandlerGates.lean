/-
SharedOS.Http.HandlerGates — every request is answered, and none reaches the API another way than
through the gates.

The handler decides nothing about authority. What it owes is that the API is entered for a request
whose context the host resolved and the contract accepts, on the route the request names, with the
body that route's schema made of the request's own; and that whatever happens, what is sent back is
the answer to that. `Came` lists what a request can have come to, and each run has one of them.
-/
import SharedOS.Foundation.Agreement
import SharedOS.Http.Handler

namespace SharedOS.Http

open SharedOS.Foundation SharedOS.Contracts

/-! ## What is read off a run -/

/-- The operation is a call of the API. -/
def HandlerOp.isApi : HandlerOp → Bool
  | .api _ _ _ => true
  | _ => false

/-- The calls of the API, with what they were answered. -/
def apiCalls (t : HandlerTrace) : HandlerTrace := t.filter fun e => e.1.isApi

@[simp] theorem apiCalls_append (t u : HandlerTrace) : apiCalls (t ++ u) = apiCalls t ++ apiCalls u :=
  List.filter_append ..

/-- The id the response goes under: the request's own, or a fresh one. -/
def IdOf (request : HttpRequest) (t : HandlerTrace) (requestId : JsString) : Prop :=
  request.requestId = some requestId ∨
    request.requestId = none ∧ ⟨.randomUUID, requestId⟩ ∈ t

/-- The request is the one its route stands for. -/
structure Routed (request : HttpRequest) (route : SharedOSRouteName) : Prop where
  path : route.path = request.pathname
  verb : route.method.text = request.method

section Gates

variable [HostPlatform]

/-- The context the host resolved for the request, as the contract parses it. -/
def ContextResolved (request : HttpRequest) (t : HandlerTrace) (context : AccessContext) : Prop :=
  ∃ resolved, ⟨.resolveContext request, .ok resolved⟩ ∈ t ∧
    accessContextSchema resolved = some context

/-- What stands before an operation of the API. -/
structure EnteredThrough (request : HttpRequest) (t : HandlerTrace) (route : SharedOSRouteName)
    (context : AccessContext) (body : RouteRequest route) : Prop where
  routed : Routed request route
  notHealth : route ≠ .health
  resolved : ContextResolved request t context
  parsed : routeBody request (requestSchema route) = .ok body

/-- The API is entered through the gates, and once. -/
def Gate (request : HttpRequest) (t : HandlerTrace) : HandlerOp → Prop
  | .api route context body => EnteredThrough request t route context body ∧ apiCalls t = []
  | _ => True

/-- The context is no obstacle: it was resolved, or the path is the one that is served without. -/
def ContextPassed (request : HttpRequest) (t : HandlerTrace) : Prop :=
  request.pathname = SharedOSRouteName.health.path ∨ ∃ context, ContextResolved request t context

/-- A refusal of the handler's own, at the first gate that is not passed. -/
inductive Refused (request : HttpRequest) (t : HandlerTrace) : Thrown → Prop
  | notFound {context : AccessContext} (hcontext : ContextResolved request t context)
      (h : ∀ route : SharedOSRouteName, route.path ≠ request.pathname) :
      Refused request t (httpError 404 .notFound "SharedOS endpoint not found.")
  | methodNotAllowed {message : JsString} (hcontext : ContextPassed request t)
      (hpath : ∃ route : SharedOSRouteName, route.path = request.pathname)
      (hverb : ∀ route, ¬ Routed request route) :
      Refused request t (httpError 405 .methodNotAllowed message)
  | invalidContext {resolved : AccessContext} (h : ⟨.resolveContext request, .ok resolved⟩ ∈ t)
      (hrefused : accessContextSchema resolved = none) :
      Refused request t
        (httpError 500 .invalidAccessContext "The host returned an invalid access context.")
  | invalidBody {route : SharedOSRouteName} {context : AccessContext} {error : Thrown}
      (hrouted : Routed request route) (hcontext : ContextResolved request t context)
      (h : routeBody request (requestSchema route) = .error error) : Refused request t error

/-- What a request came to: the status and payload of an answer, or what was thrown. -/
inductive Came (request : HttpRequest) (t : HandlerTrace) : Except Thrown (ℤ × Json) → Prop
  | healthy (h : Routed request .health) (hcalls : apiCalls t = []) :
      Came request t (.ok (200, sharedOsHealthCodec.write ⟨PROTOCOL_VERSION⟩))
  | refused {error : Thrown} (h : Refused request t error) (hcalls : apiCalls t = []) :
      Came request t (.error error)
  | hostThrew {error : Thrown} (h : ⟨.resolveContext request, .error error⟩ ∈ t)
      (hcalls : apiCalls t = []) : Came request t (.error error)
  | served {route : SharedOSRouteName} {context : AccessContext} {body : RouteRequest route}
      {result : RouteResponse route} (h : EnteredThrough request t route context body)
      (hcalls : apiCalls t = [⟨.api route context body, .ok result⟩]) :
      Came request t (.ok (successStatus route result, (responseSchema route).codec.write result))
  | apiThrew {route : SharedOSRouteName} {context : AccessContext} {body : RouteRequest route}
      {error : Thrown} (h : EnteredThrough request t route context body)
      (hcalls : apiCalls t = [⟨.api route context body, .error error⟩]) :
      Came request t (.error error)

/-- How what a request came to is sent back. -/
def respond (requestId : JsString) : Except Thrown (ℤ × Json) → Except Thrown HttpResponse
  | .ok (status, payload) => json payload status requestId
  | .error error => errorResponse error requestId

/-- The host, or the API, threw this. -/
def ThrewIn (request : HttpRequest) (t : HandlerTrace) (error : Thrown) : Prop :=
  ⟨.resolveContext request, .error error⟩ ∈ t ∨
    ∃ route context body, ⟨.api route context body, .error error⟩ ∈ t

/-! ## Routing -/

omit [HostPlatform] in
theorem mem_all (route : SharedOSRouteName) : route ∈ SharedOSRouteName.all := by
  cases route <;> decide

omit [HostPlatform] in
theorem mem_routesByPath {pathname : JsString} {route : SharedOSRouteName} :
    route ∈ routesByPath pathname ↔ route.path = pathname := by
  unfold routesByPath
  rw [List.mem_filter, decide_eq_true_eq]
  exact and_iff_right (mem_all route)

omit [HostPlatform] in
/-- A route that is resolved is the one the request names. -/
theorem routed_of_resolveRoute {request : HttpRequest} {route : SharedOSRouteName}
    (h : resolveRoute request = .ok route) : Routed request route := by
  unfold resolveRoute at h
  split at h
  · cases h
  · next verbs hverbs =>
      split at h
      · next found hfound =>
          cases h
          have hmem := List.mem_of_find?_eq_some hfound
          have hverb := List.find?_some hfound
          exact ⟨mem_routesByPath.mp hmem, of_decide_eq_true hverb⟩
      · cases h

/-- A request none of whose routes is found is refused with the reason why. -/
theorem refused_of_resolveRoute {request : HttpRequest} {error : Thrown} {t : HandlerTrace}
    (hcontext : ContextPassed request t) (h : resolveRoute request = .error error) :
    Refused request t error := by
  unfold resolveRoute at h
  split at h
  · next hnone =>
      cases h
      have hunknown : ∀ route : SharedOSRouteName, route.path ≠ request.pathname := by
        intro route hpath
        have hmem := mem_routesByPath.mpr hpath
        rw [hnone] at hmem
        exact List.not_mem_nil hmem
      rcases hcontext with hhealth | ⟨context, hresolved⟩
      · exact absurd hhealth.symm (hunknown .health)
      · exact .notFound hresolved hunknown
  · next verbs hverbs =>
      split at h
      · cases h
      · next hfind =>
          cases h
          have hunfit := List.find?_eq_none.mp hfind
          obtain ⟨route, hmem⟩ := List.exists_mem_of_ne_nil _ hverbs
          refine .methodNotAllowed hcontext ⟨route, mem_routesByPath.mp hmem⟩
            fun other hrouted => ?_
          exact hunfit other (mem_routesByPath.mpr hrouted.path) (decide_eq_true hrouted.verb)

/-! ## Responses -/

theorem json_ok (payload : Json) {status : ℤ} (h : status = 200 ∨ status = 202)
    (requestId : JsString) : ∃ response, json payload status requestId = .ok response := by
  rcases h with rfl | rfl
  · exact ⟨_, rfl⟩
  · exact ⟨_, rfl⟩

omit [HostPlatform] in
theorem successStatus_eq (route : SharedOSRouteName) (result : RouteResponse route) :
    successStatus route result = 200 ∨ successStatus route result = 202 := by
  unfold successStatus
  split
  · split
    · exact .inr rfl
    · exact .inl rfl
  · exact .inl rfl

theorem json_error {payload : Json} {status : ℤ} {requestId : JsString} {e : Thrown}
    (h : json payload status requestId = .error e) : responseStatus status = none := by
  unfold json at h
  split at h
  · cases h
  · next hstatus => exact hstatus

omit [HostPlatform] in
theorem errorBody_other (requestId : JsString) (code : Option JsString) :
    (errorBody requestId (.other code)).1 = 403 ∨ (errorBody requestId (.other code)).1 = 500 := by
  simp only [errorBody]
  split
  · exact .inl rfl
  · exact .inr rfl

/-- Writing an error fails only on a status that no response has. -/
theorem errorResponse_error {requestId : JsString} {error e : Thrown}
    (h : errorResponse error requestId = .error e) :
    ∃ named, error = .http named ∧ responseStatus named.status = none := by
  have hstatus := json_error h
  cases error with
  | http named => exact ⟨named, rfl, hstatus⟩
  | other code =>
      rcases errorBody_other requestId code with hother | hother
      · rw [hother] at hstatus
        exact absurd hstatus (by decide)
      · rw [hother] at hstatus
        exact absurd hstatus (by decide)

omit [HostPlatform] in
theorem parseBody_error {request : HttpRequest} {α : Type} {wire : WireSchema α} {error : Thrown}
    (h : parseBody request wire = .error error) :
    ∃ code message, error = httpError 400 code message := by
  unfold parseBody at h
  split at h
  · exact ⟨_, _, (Except.error.inj h).symm⟩
  · split at h
    · exact ⟨_, _, (Except.error.inj h).symm⟩
    · split at h
      · exact ⟨_, _, (Except.error.inj h).symm⟩
      · cases h

omit [HostPlatform] in
theorem routeBody_error {request : HttpRequest} {α : Type} {schema : RequestSchema α}
    {error : Thrown} (h : routeBody request schema = .error error) :
    ∃ code message, error = httpError 400 code message := by
  cases schema with
  | absent => cases h
  | body wire => exact parseBody_error h

/-- A refusal of the handler's own has a status that a response has. -/
theorem Refused.status {request : HttpRequest} {t : HandlerTrace} {named : SharedOSHttpError}
    (h : Refused request t (.http named)) : responseStatus named.status ≠ none := by
  have own : ∀ status ∈ ([404, 405, 500, 400] : List ℤ), responseStatus status ≠ none := by decide
  apply own
  cases h with
  | notFound _ _ => decide
  | methodNotAllowed _ _ _ => simp
  | invalidContext _ _ => decide
  | invalidBody _ _ hbody =>
      obtain ⟨code, message, heq⟩ := routeBody_error hbody
      cases heq
      simp

/-- What a request came to is sent back; thrown is only a status no response has, and the host or the
API named it. -/
theorem respond_error {request : HttpRequest} {t : HandlerTrace} {requestId : JsString}
    {outcome : Except Thrown (ℤ × Json)} {e : Thrown} (hcame : Came request t outcome)
    (h : respond requestId outcome = .error e) :
    ∃ named, ThrewIn request t (.http named) ∧ responseStatus named.status = none := by
  cases hcame with
  | healthy _ _ => cases h
  | @served route _ _ result _ _ =>
      obtain ⟨response, hresponse⟩ := json_ok ((responseSchema route).codec.write result)
        (successStatus_eq route result) requestId
      rw [respond, hresponse] at h
      cases h
  | refused hrefused _ =>
      obtain ⟨named, rfl, hstatus⟩ := errorResponse_error h
      exact absurd hstatus hrefused.status
  | hostThrew hthrew _ =>
      obtain ⟨named, rfl, hstatus⟩ := errorResponse_error h
      exact ⟨named, .inl hthrew, hstatus⟩
  | @apiThrew route context body error _ hcalls =>
      obtain ⟨named, rfl, hstatus⟩ := errorResponse_error h
      have hmem : ⟨.api route context body, .error (.http named)⟩ ∈ apiCalls t := by
        rw [hcalls]
        exact List.mem_singleton_self _
      exact ⟨named, .inr ⟨route, context, body, List.mem_of_mem_filter hmem⟩, hstatus⟩

/-! ## The run -/

/-- What the handler has come to, its answer written. -/
def Answered (request : HttpRequest) (requestId : JsString) (t : HandlerTrace)
    (r : Except Thrown HttpResponse) : Prop :=
  ∃ outcome, Came request t outcome ∧ r = outcome.bind fun answer => json answer.2 answer.1 requestId

theorem ContextResolved.snoc {request : HttpRequest} {t : HandlerTrace} {context : AccessContext}
    (h : ContextResolved request t context) (e : Event HandlerOp.Answer) :
    ContextResolved request (t ++ [e]) context := by
  obtain ⟨resolved, hmem, hparsed⟩ := h
  exact ⟨resolved, List.mem_append_left _ hmem, hparsed⟩

theorem wp_serveRoute {request : HttpRequest} {requestId : JsString} {context : AccessContext}
    {route : SharedOSRouteName} {h : HandlerTrace} (hrouted : Routed request route)
    (hhealth : route ≠ .health) (hcontext : ContextResolved request h context)
    (hcalls : apiCalls h = []) :
    Program.wp (Gate request) (serveRoute request requestId context route)
      (Answered request requestId) h := by
  unfold serveRoute
  rw [if_neg hhealth]
  cases hbody : routeBody request (requestSchema route) with
  | error error =>
      exact ⟨.error error, .refused (.invalidBody hrouted hcontext hbody) hcalls, rfl⟩
  | ok body =>
      have hentered : EnteredThrough request h route context body :=
        ⟨hrouted, hhealth, hcontext, hbody⟩
      refine ⟨⟨hentered, hcalls⟩, fun answer => ?_⟩
      have hentered' : EnteredThrough request (h ++ [⟨.api route context body, answer⟩]) route
          context body := ⟨hrouted, hhealth, hcontext.snoc _, hbody⟩
      have hcalls' : apiCalls (h ++ [⟨.api route context body, answer⟩]) =
          [⟨.api route context body, answer⟩] := by
        rw [apiCalls_append, hcalls]
        rfl
      cases answer with
      | error error => exact ⟨.error error, .apiThrew hentered' hcalls', rfl⟩
      | ok result =>
          obtain ⟨response, hresponse⟩ := json_ok ((responseSchema route).codec.write result)
            (successStatus_eq route result) requestId
          refine Program.wp_ofExcept.mpr ⟨_, .served hentered' hcalls', rfl⟩

theorem wp_healthResponse {request : HttpRequest} {requestId : JsString} {h : HandlerTrace}
    (hrouted : Routed request .health) (hcalls : apiCalls h = []) :
    Program.wp (Gate request) (healthResponse requestId) (Answered request requestId) h := by
  obtain ⟨response, hresponse⟩ := json_ok (sharedOsHealthCodec.write ⟨PROTOCOL_VERSION⟩)
    (.inl rfl) requestId
  exact Program.wp_ofExcept.mpr ⟨_, .healthy hrouted hcalls, rfl⟩

omit [HostPlatform] in
/-- Another path than the health path leads to another route. -/
theorem not_health_of_path {request : HttpRequest} {route : SharedOSRouteName}
    (hpath : request.pathname ≠ SharedOSRouteName.health.path) (h : Routed request route) :
    route ≠ .health := by
  rintro rfl
  exact hpath h.path.symm

omit [HostPlatform] in
theorem health_of_path {request : HttpRequest} {route : SharedOSRouteName}
    (hpath : request.pathname = SharedOSRouteName.health.path) (h : Routed request route) :
    route = .health := by
  have hsame : route.path = SharedOSRouteName.health.path := h.path.trans hpath
  revert hsame
  cases route <;> decide

/-- What resolving the context came to. -/
def ContextCame (request : HttpRequest) (t : HandlerTrace) : Except Thrown AccessContext → Prop
  | .ok context => ContextResolved request t context
  | .error error => Refused request t error ∨ ⟨.resolveContext request, .error error⟩ ∈ t

theorem wp_resolveAccessContext {request : HttpRequest} {h : HandlerTrace}
    (hcalls : apiCalls h = []) :
    Program.wp (Gate request) (resolveAccessContext request)
      (fun t r => apiCalls t = [] ∧ ContextCame request t r) h := by
  simp only [resolveAccessContext, query, Program.perform_bind, Program.wp_ask]
  refine ⟨trivial, fun answer => ?_⟩
  have hmem : ⟨.resolveContext request, answer⟩ ∈ h ++ [⟨.resolveContext request, answer⟩] :=
    List.mem_append_right _ (List.mem_singleton_self _)
  have hcalls' : apiCalls (h ++ [⟨.resolveContext request, answer⟩]) = [] := by
    rw [apiCalls_append, hcalls]
    rfl
  cases answer with
  | error error => exact ⟨hcalls', .inr hmem⟩
  | ok resolved =>
      simp only [Program.ofExcept_ok, Program.done_bind]
      split
      · next context hparsed => exact ⟨hcalls', resolved, hmem, hparsed⟩
      · next hrefused => exact ⟨hcalls', .inl (.invalidContext hmem hrefused)⟩

theorem wp_routeRequest (request : HttpRequest) (requestId : JsString) {h : HandlerTrace}
    (hcalls : apiCalls h = []) :
    Program.wp (Gate request) (routeRequest request requestId) (Answered request requestId) h := by
  unfold routeRequest
  split
  · next hpath =>
      cases hroute : resolveRoute request with
      | error error => exact ⟨_, .refused (refused_of_resolveRoute (.inl hpath) hroute) hcalls, rfl⟩
      | ok route =>
          have hrouted := routed_of_resolveRoute hroute
          obtain rfl := health_of_path hpath hrouted
          exact wp_healthResponse hrouted hcalls
  · next hpath =>
      refine Program.wp_bind.mpr (Program.wp_mono (wp_resolveAccessContext hcalls) ?_)
      rintro t (error | context) ⟨hcalls, hcame⟩
      · rcases hcame with hrefused | hthrew
        · exact ⟨_, .refused hrefused hcalls, rfl⟩
        · exact ⟨_, .hostThrew hthrew hcalls, rfl⟩
      · cases hroute : resolveRoute request with
        | error error =>
            exact ⟨_, .refused (refused_of_resolveRoute (.inr ⟨context, hcame⟩) hroute) hcalls, rfl⟩
        | ok route =>
            have hrouted := routed_of_resolveRoute hroute
            exact wp_serveRoute hrouted (not_health_of_path hpath hrouted) hcame hcalls

/-! ## Every request -/

omit [HostPlatform] in
theorem apiCalls_snoc_quiet {t : HandlerTrace} {e : Event HandlerOp.Answer}
    (h : e.1.isApi = false) : apiCalls (t ++ [e]) = apiCalls t := by
  rw [apiCalls_append]
  unfold apiCalls
  rw [List.filter_cons_of_neg (by simpa using h), List.filter_nil, List.append_nil]

/-- What a request came to stands, whatever is asked after it that is not the API. -/
theorem Came.snoc {request : HttpRequest} {t : HandlerTrace} {outcome : Except Thrown (ℤ × Json)}
    (h : Came request t outcome) {e : Event HandlerOp.Answer} (he : e.1.isApi = false) :
    Came request (t ++ [e]) outcome := by
  have hcalls := apiCalls_snoc_quiet (t := t) he
  cases h with
  | healthy h hnone => exact .healthy h (hcalls.trans hnone)
  | refused h hnone =>
      refine .refused ?_ (hcalls.trans hnone)
      cases h with
      | notFound hcontext h => exact .notFound (hcontext.snoc e) h
      | methodNotAllowed hcontext hpath hverb =>
          refine .methodNotAllowed ?_ hpath hverb
          exact hcontext.imp_right fun ⟨context, hresolved⟩ => ⟨context, hresolved.snoc e⟩
      | invalidContext h hrefused => exact .invalidContext (List.mem_append_left _ h) hrefused
      | invalidBody hrouted hcontext h => exact .invalidBody hrouted (hcontext.snoc e) h
  | hostThrew h hnone => exact .hostThrew (List.mem_append_left _ h) (hcalls.trans hnone)
  | served h hcall =>
      exact .served { h with resolved := h.resolved.snoc e } (hcalls.trans hcall)
  | apiThrew h hcall =>
      exact .apiThrew { h with resolved := h.resolved.snoc e } (hcalls.trans hcall)

theorem Came.status {request : HttpRequest} {t : HandlerTrace} {answer : ℤ × Json}
    (h : Came request t (.ok answer)) : answer.1 = 200 ∨ answer.1 = 202 := by
  cases h with
  | healthy _ _ => exact .inl rfl
  | served _ _ => exact successStatus_eq _ _

/-- How a run ends: under the request's id, with what the request came to. -/
structure Ended (request : HttpRequest) (t : HandlerTrace) (r : Except Thrown HttpResponse) :
    Prop where
  answered : ∃ requestId outcome, IdOf request t requestId ∧ Came request t outcome ∧
    r = respond requestId outcome
  rejected : ∀ e, r = .error e → ∃ named, ThrewIn request t (.http named) ∧
    responseStatus named.status = none

theorem Ended.of_came {request : HttpRequest} {t : HandlerTrace} {requestId : JsString}
    {outcome : Except Thrown (ℤ × Json)} (hid : IdOf request t requestId)
    (hcame : Came request t outcome) : Ended request t (respond requestId outcome) where
  answered := ⟨requestId, outcome, hid, hcame, rfl⟩
  rejected _ h := respond_error hcame h

/-- The run from the moment its id is known. -/
theorem wp_identified {options : SharedOSHttpOptions} {request : HttpRequest} {requestId : JsString}
    {h : HandlerTrace} (hcalls : apiCalls h = [])
    (hid : ∀ t, IdOf request (h ++ t) requestId) :
    Program.wp (Gate request) (do
      match ← (routeRequest request requestId).attempt with
      | .ok response => pure response
      | .error error =>
        reportError options error request requestId
        Program.ofExcept (errorResponse error requestId)) (Ended request) h := by
  have hroute := Program.wp_sound (wp_routeRequest request requestId hcalls)
  refine Program.wp_bind.mpr (Program.wp_attempt.mpr
    (Program.wp_of_runs hroute.1 fun t r hr => ?_))
  obtain ⟨outcome, hcame, rfl⟩ := hroute.2 t r hr
  cases outcome with
  | ok answer =>
      obtain ⟨response, hresponse⟩ := json_ok answer.2 hcame.status requestId
      have hended := Ended.of_came (hid t) hcame
      simp only [respond, Except.bind, hresponse] at hended ⊢
      exact hended
  | error error =>
      show Program.wp _ (do
        reportError options error request requestId
        Program.ofExcept (errorResponse error requestId)) _ _
      unfold reportError
      split
      · refine ⟨trivial, fun answer => Program.wp_ofExcept.mpr ?_⟩
        have hlater := hid (t ++ [⟨.onError error request requestId, answer⟩])
        rw [← List.append_assoc] at hlater
        exact Ended.of_came hlater (hcame.snoc rfl)
      · exact Program.wp_ofExcept.mpr (Ended.of_came (hid t) hcame)

/-- **Every request is answered behind its gates**, and by what it came to at the first that failed. -/
theorem requests_answered (options : SharedOSHttpOptions) (request : HttpRequest) :
    (∀ t o, Program.Asks (handler options request) t o → Gate request t o) ∧
      ∀ t r, Program.Finishes (handler options request) t r → Ended request t r := by
  have hrun : Program.wp (Gate request) (handler options request) (Ended request) [] := by
    unfold handler requestIdOf
    cases hpresented : request.requestId with
    | some requestId => exact wp_identified rfl fun t => .inl hpresented
    | none =>
        refine ⟨trivial, fun requestId => wp_identified rfl fun t => .inr ⟨hpresented, ?_⟩⟩
        exact List.mem_cons_self
  exact Program.wp_sound hrun

end Gates

end SharedOS.Http
