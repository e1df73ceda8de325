/-
SharedOS.Http.Client — the client over the handler, and that the wire between them is transparent.

`overHttp` is a method of the client whose `fetch` is the handler: the value is written as JSON text,
the request is routed and parsed, the API is asked, and what it answers takes the same way back.
`direct` asks the API with no wire between. They have the same runs, of those in which every value
that crosses is one JSON text carries (`client_over_handler`). So the client invents no answer and
loses none, and it reports a failure under the status and code it had.

The method, the path, the body and the request id are what the two sides read of a request. Whatever
else the client puts in its headers is for the host, which resolves a context from the request as a
whole.
-/
import SharedOS.Http.HandlerGates

namespace SharedOS.Http

open SharedOS.Foundation SharedOS.Contracts

/-! ## The client -/

/-- `SharedOSClientError`. -/
structure SharedOSClientError where
  status : ℤ
  code : JsString
  message : JsString
  requestId : Option JsString
  deriving DecidableEq

/-- An answer the client could not read. -/
def invalidResponse (status : ℤ) (message : JsString) : SharedOSClientError where
  status
  code := "invalid_response"
  message
  requestId := none

section Client

variable [HostPlatform]

/-- The value a method puts on the wire. Three of them parse what they are given first. -/
def prepare : (route : SharedOSRouteName) → RouteRequest route → Option (RouteRequest route)
  | .updateToolNamespaces, update => toolNamespaceUpdateSchema update
  | .invokeResource, operation => remoteResourceOperationSchema operation
  | .executeTurn, request => remoteExecutionRequestSchema request
  | _, body => some body

/-- The text of a body; none, for a route that takes none. -/
def bodyText {α : Type} (body : α) : RequestSchema α → JsString
  | .absent => []
  | .body wire => (wire.codec.write body).stringify HostPlatform.numberToString

/-- What `#call` hands to `fetch`. -/
def clientRequest (route : SharedOSRouteName) (body : RouteRequest route)
    (requestId : Option JsString) : HttpRequest where
  method := route.method.text
  pathname := route.path
  requestId
  body := .fulfilled (bodyText body (requestSchema route))

/-- The payload of a response, where it has a body. -/
def readJson (response : HttpResponse) : Except SharedOSClientError (Option Json) :=
  if response.body = [] then .ok none
  else
    match jsonParse response.body with
    | some payload => .ok (some payload)
    | none => .error (invalidResponse response.status "SharedOS returned a non-JSON response.")

/-- The error a response carries, as far as it can be read. -/
def readApiError (payload : Option Json) : SharedOSApiErrorBody :=
  match payload.bind fun v => (apiErrorCodec.read v).bind apiErrorSchema with
  | some error => error
  | none => { code := "request_failed", message := "SharedOS request failed.", requestId := none }

/-- The end of `#request`. -/
def readResponse (route : SharedOSRouteName) (response : HttpResponse) :
    Except SharedOSClientError (RouteResponse route) :=
  match readJson response with
  | .error error => .error error
  | .ok payload =>
    if response.ok then
      match payload.bind (responseSchema route).safeParse with
      | some data => .ok data
      | none => .error (invalidResponse response.status
          "SharedOS returned a response that does not match the v1 contract.")
    else
      let error := readApiError payload
      .error { status := response.status, code := error.code, message := error.message,
               requestId := error.requestId }

/-- A method of the client, its `fetch` being the handler. -/
def overHttp (options : SharedOSHttpOptions) (route : SharedOSRouteName)
    (body : RouteRequest route) (requestId : Option JsString) :
    HandlerM (Except SharedOSClientError (RouteResponse route)) :=
  match prepare route body with
  | none => .throw (.other none)
  | some sent => do
    let response ← handler options (clientRequest route sent requestId)
    pure (readResponse route response)

/-! ## The direct way -/

/-- The value as the schema of a request has it. -/
def acceptedBody {α : Type} (body : α) : RequestSchema α → Except Thrown α
  | .absent => .ok body
  | .body wire =>
    match wire.schema body with
    | some data => .ok data
    | none => .error (httpError 400 .invalidRequest "Request body does not match the v1 contract.")

/-- The API is asked with the value itself, under the context the host resolves. The health of a
server is nothing the API is asked for. -/
def askApi (route : SharedOSRouteName) (body : RouteRequest route) (request : HttpRequest) :
    HandlerM (RouteResponse route) :=
  match route with
  | .health => pure ⟨PROTOCOL_VERSION⟩
  | route => do
    let context ← resolveAccessContext request
    let accepted ← Program.ofExcept (acceptedBody body (requestSchema route))
    let answer ← query (.api route context accepted)
    Program.ofExcept answer

/-- A result is accepted as the response schema has it. -/
def acceptResult (route : SharedOSRouteName) (result : RouteResponse route) :
    Except SharedOSClientError (RouteResponse route) :=
  match (responseSchema route).schema result with
  | some data => .ok data
  | none => .error (invalidResponse (successStatus route result)
      "SharedOS returned a response that does not match the v1 contract.")

/-- The failure a throw is told as: its own status and code, where an error answer can carry them. A
throw under a status of success is no answer the client can read. -/
def toldAs (requestId : JsString) (error : Thrown) : Except Thrown SharedOSClientError :=
  let (named, body) := errorBody requestId error
  match responseStatus named with
  | none => .error (.other none)
  | some status =>
    .ok (if status ≤ 299 then invalidResponse status
          "SharedOS returned a response that does not match the v1 contract."
        else
          match apiErrorSchema body with
          | some body => { status, code := body.code, message := body.message,
                           requestId := body.requestId }
          | none => { status, code := "request_failed", message := "SharedOS request failed.",
                      requestId := none })

/-- The method with no wire between. -/
def direct (options : SharedOSHttpOptions) (route : SharedOSRouteName)
    (body : RouteRequest route) (requestId : Option JsString) :
    HandlerM (Except SharedOSClientError (RouteResponse route)) :=
  match prepare route body with
  | none => .throw (.other none)
  | some sent => do
    let request := clientRequest route sent requestId
    let requestId ← requestIdOf request
    match ← (askApi route sent request).attempt with
    | .ok result => pure (acceptResult route result)
    | .error error => do
      reportError options error request requestId
      let told ← Program.ofExcept (toldAs requestId error)
      pure (.error told)

/-! ## What the wire carries -/

/-- The body of a request is one JSON text carries. -/
def RequestSchema.Exact {α : Type} (body : α) : RequestSchema α → Prop
  | .absent => True
  | .body wire => TextExact (wire.codec.write body)

/-- What the API answers is one JSON text carries. -/
def AnswerExact : Event HandlerOp.Answer → Prop
  | ⟨.api route _ _, .ok result⟩ => TextExact ((responseSchema route).codec.write result)
  | _ => True

section Numbers

omit [HostPlatform]

variable {N : JsNumber → Prop}

@[simp] theorem numbersIn_str (s : JsString) : (Json.str s).NumbersIn N := .str s

@[simp] theorem numbersIn_bool (b : Bool) : (Json.bool b).NumbersIn N := .bool b

@[simp] theorem numbersIn_arr {items : List Json} :
    (Json.arr items).NumbersIn N ↔ ∀ v ∈ items, v.NumbersIn N :=
  ⟨fun h => by cases h with | arr h => exact h, .arr⟩

@[simp] theorem numbersIn_obj {entries : List (JsString × Json)} :
    (Json.obj entries).NumbersIn N ↔ ∀ e ∈ entries, e.2.NumbersIn N :=
  ⟨fun h => by cases h with | obj h => exact h, .obj⟩

end Numbers

/-- An error body is one JSON text carries. -/
theorem textExact_apiError (error : SharedOSApiErrorBody) : TextExact (apiErrorCodec.write error) := by
  obtain ⟨code, message, requestId⟩ := error
  cases requestId with
  | none =>
      refine ⟨?_, rfl⟩
      simp [apiErrorCodec, Codec.view, Members.strict, Members.required, Members.optional,
        Members.empty, Codec.text, Codec.entry]
  | some requestId =>
      refine ⟨?_, rfl⟩
      simp [apiErrorCodec, Codec.view, Members.strict, Members.required, Members.optional,
        Members.empty, Codec.text, Codec.entry]

theorem textExact_health : TextExact (sharedOsHealthCodec.write ⟨PROTOCOL_VERSION⟩) where
  numbers := by
    simp [sharedOsHealthCodec, Codec.view, Members.strict, Members.required, Members.literal,
      Members.empty, Codec.text]
  reread := rfl

/-- No route reads an error body as an answer. -/
theorem read_apiError (route : SharedOSRouteName) (error : SharedOSApiErrorBody) :
    (responseSchema route).codec.read (apiErrorCodec.write error) = none := by
  obtain ⟨code, message, requestId⟩ := error
  cases route <;> cases requestId <;> rfl

theorem resolveRoute_clientRequest (route : SharedOSRouteName) (body : RouteRequest route)
    (requestId : Option JsString) :
    resolveRoute (clientRequest route body requestId) = .ok route := by
  cases route <;> rfl

/-! ## The two ways -/

/-- What a text was written from is read from it. -/
theorem readJson_json {payload : Json} (h : TextExact payload) {status : ℤ} {requestId : JsString}
    {response : HttpResponse} (hjson : json payload status requestId = .ok response) :
    readJson response = .ok (some payload) ∧ responseStatus status = some response.status := by
  unfold json at hjson
  split at hjson
  · next short hstatus =>
      cases hjson
      have hparse := jsonParse_of_textExact h
      have hsome : payload.stringify HostPlatform.numberToString ≠ [] := by
        intro hempty
        have hnone : jsonParse [] = none := by decide
        rw [hempty, hnone] at hparse
        cases hparse
      refine ⟨?_, hstatus⟩
      simp only [readJson, if_neg hsome, hparse]
  · cases hjson

omit [HostPlatform] in
theorem responseStatus_success {status : ℤ} (h : status = 200 ∨ status = 202) :
    responseStatus status = some status := by
  rcases h with rfl | rfl
  · rfl
  · rfl

omit [HostPlatform] in
theorem responseStatus_range {named status : ℤ} (h : responseStatus named = some status) :
    200 ≤ status ∧ status ≤ 599 := by
  unfold responseStatus at h
  dsimp only at h
  split at h
  · next hrange =>
      cases h
      exact ⟨hrange.1, hrange.2.1⟩
  · cases h

/-- The handler reads the value the client sent, as its schema has it. -/
theorem routeBody_bodyText {α : Type} {schema : RequestSchema α} {body : α}
    (h : schema.Exact body) {request : HttpRequest}
    (hbody : request.body = .fulfilled (bodyText body schema)) :
    routeBody request schema = acceptedBody body schema := by
  cases schema with
  | absent => rfl
  | body wire =>
      show parseBody request wire = acceptedBody body (.body wire)
      unfold parseBody acceptedBody
      rw [hbody]
      simp only [bodyText, jsonParse_of_textExact h, WireSchema.safeParse_write]
      cases wire.schema body with
      | none => rfl
      | some data => rfl

/-- A result takes its way back. -/
theorem readResponse_result {route : SharedOSRouteName} {result : RouteResponse route}
    (h : TextExact ((responseSchema route).codec.write result)) {requestId : JsString}
    {response : HttpResponse} (hjson : json ((responseSchema route).codec.write result)
      (successStatus route result) requestId = .ok response) :
    readResponse route response = acceptResult route result := by
  obtain ⟨hread, hstatus⟩ := readJson_json h hjson
  rw [responseStatus_success (successStatus_eq route result)] at hstatus
  have hsame : successStatus route result = response.status := Option.some.inj hstatus
  have hok : response.ok = true := by
    unfold HttpResponse.ok
    rw [← hsame]
    rcases successStatus_eq route result with hsuccess | hsuccess
    · rw [hsuccess]
      rfl
    · rw [hsuccess]
      rfl
  unfold readResponse acceptResult
  simp only [hread, hok, if_true, Option.bind_some, WireSchema.safeParse_write, hsame]

/-- A throw takes its way back. -/
theorem readResponse_error (route : SharedOSRouteName) {error : Thrown} {requestId : JsString}
    {response : HttpResponse} (hjson : errorResponse error requestId = .ok response) :
    ∃ told, toldAs requestId error = .ok told ∧ readResponse route response = .error told := by
  obtain ⟨hread, hstatus⟩ := readJson_json (textExact_apiError _) hjson
  have hrange := responseStatus_range hstatus
  by_cases hsuccess : response.status ≤ 299
  · have hok : response.ok = true := by simp [HttpResponse.ok, hrange.1, hsuccess]
    have hnone : (responseSchema route).safeParse
        (apiErrorCodec.write (errorBody requestId error).2) = none := by
      unfold WireSchema.safeParse
      rw [read_apiError, Option.bind_none]
    refine ⟨_, by simp only [toldAs, hstatus, if_pos hsuccess]; rfl, ?_⟩
    simp only [readResponse, hread, hok, if_true, Option.bind_some, hnone]
  · have hok : response.ok = false := by simp [HttpResponse.ok, hsuccess]
    refine ⟨_, by simp only [toldAs, hstatus, if_neg hsuccess]; rfl, ?_⟩
    have hbody := apiErrorCodec.read_write (errorBody requestId error).2
    simp only [readResponse, hread, hok, readApiError, Option.bind_some, hbody]
    cases apiErrorSchema (errorBody requestId error).2 with
    | none => rfl
    | some body => rfl

/-- A throw that no response can be written for is thrown on. -/
theorem toldAs_of_unwritten {error e : Thrown} {requestId : JsString}
    (h : errorResponse error requestId = .error e) : toldAs requestId error = .error e := by
  unfold errorResponse json at h
  split at h
  · cases h
  · next hstatus =>
      cases h
      simp only [toldAs, hstatus]

omit [HostPlatform] in
theorem path_ne_health {route : SharedOSRouteName} (h : route ≠ .health) :
    route.path ≠ SharedOSRouteName.health.path := by
  revert h
  cases route <;> decide

theorem askApi_of_ne {route : SharedOSRouteName} (h : route ≠ .health) {sent : RouteRequest route}
    {request : HttpRequest} : askApi route sent request = (do
      let context ← resolveAccessContext request
      let accepted ← Program.ofExcept (acceptedBody sent (requestSchema route))
      let answer ← query (.api route context accepted)
      Program.ofExcept answer) := by
  unfold askApi
  split
  · exact absurd rfl h
  · rfl

/-- The response a result is written as. -/
def written (route : SharedOSRouteName) (requestId : JsString) (result : RouteResponse route) :
    HttpResponse where
  status := successStatus route result
  requestId
  body := ((responseSchema route).codec.write result).stringify HostPlatform.numberToString

theorem json_written (route : SharedOSRouteName) (requestId : JsString)
    (result : RouteResponse route) : json ((responseSchema route).codec.write result)
      (successStatus route result) requestId = .ok (written route requestId result) := by
  unfold json
  rw [responseStatus_success (successStatus_eq route result)]
  rfl

/-- On the client's own request the handler asks what `direct` asks, and writes what comes of it. -/
theorem routeRequest_clientRequest {route : SharedOSRouteName} {sent : RouteRequest route}
    (hsent : (requestSchema route).Exact sent) (presented : Option JsString)
    (requestId : JsString) :
    routeRequest (clientRequest route sent presented) requestId =
      askApi route sent (clientRequest route sent presented) >>= fun result =>
        .done (written route requestId result) := by
  have hroute := resolveRoute_clientRequest route sent presented
  have hbody := routeBody_bodyText hsent
    (show (clientRequest route sent presented).body = .fulfilled (bodyText sent _) from rfl)
  by_cases hhealth : route = .health
  · subst hhealth
    rfl
  · have hpath : (clientRequest route sent presented).pathname ≠ SharedOSRouteName.health.path :=
      path_ne_health hhealth
    rw [routeRequest, if_neg hpath, askApi_of_ne hhealth, Program.bind_assoc]
    congr 1
    funext context
    simp only [hroute, Program.ofExcept_ok, Program.done_bind, serveRoute, if_neg hhealth, hbody,
      Program.bind_assoc, json_written]

theorem yields_askApi (route : SharedOSRouteName) (sent : RouteRequest route)
    (request : HttpRequest) : Program.Yields AnswerExact
      (fun result => TextExact ((responseSchema route).codec.write result))
      (askApi route sent request) := by
  by_cases hhealth : route = .health
  · subst hhealth
    exact textExact_health
  · rw [askApi_of_ne hhealth]
    refine Program.yields_bind fun context => Program.yields_bind fun accepted answer hexact => ?_
    cases answer with
    | error error => trivial
    | ok result => exact hexact

theorem overHttp_agrees (options : SharedOSHttpOptions) {route : SharedOSRouteName}
    {body : RouteRequest route} (hbody : ∀ sent, prepare route body = some sent →
      (requestSchema route).Exact sent) (presented : Option JsString) :
    Program.Agrees AnswerExact (overHttp options route body presented)
      (direct options route body presented) := by
  unfold overHttp direct
  cases hsent : prepare route body with
  | none => exact .throw _
  | some sent =>
      simp only [handler, Program.bind_assoc]
      refine (Program.Agrees.refl _).bind fun requestId => ?_
      rw [routeRequest_clientRequest (hbody sent hsent), Program.attempt_bind_map,
        Program.bind_assoc]
      refine (Program.Agrees.refl _).bind_yields (yields_askApi route sent _).attempt ?_
      rintro (error | result) hexact
      · simp only [Except.map, Program.done_bind, Program.bind_assoc]
        refine (Program.Agrees.refl _).bind fun _ => ?_
        cases hjson : errorResponse error requestId with
        | error e =>
            rw [toldAs_of_unwritten hjson]
            exact .throw e
        | ok response =>
            obtain ⟨told, htold, hread⟩ := readResponse_error route hjson
            rw [htold, Program.ofExcept_ok, Program.done_bind, Program.ofExcept_ok,
              Program.done_bind, hread]
            exact .done _
      · have hread := readResponse_result (hexact result rfl) (json_written route requestId result)
        simp only [Except.map, Program.done_bind, Program.pure_eq, hread]
        exact .done _

/-- **The wire is transparent.** Over the handler a method of the client has the runs it has when the
API is asked directly, of those in which every value sent and answered is one JSON text carries: the
same operations are asked with the same values, and the client is told the same. -/
theorem client_over_handler (options : SharedOSHttpOptions) {route : SharedOSRouteName}
    {body : RouteRequest route} (hbody : ∀ sent, prepare route body = some sent →
      (requestSchema route).Exact sent) (presented : Option JsString) {t : HandlerTrace}
    {r : Except Thrown (Except SharedOSClientError (RouteResponse route))}
    (ht : ∀ e ∈ t, AnswerExact e) :
    Program.Finishes (overHttp options route body presented) t r ↔
      Program.Finishes (direct options route body presented) t r :=
  (overHttp_agrees options hbody presented).finishes_iff ht

end Client

namespace Sample

open scoped SharedOS.Foundation.Reference

/-- The context of the calls. -/
def context : AccessContext where
  namespaceId := "world"
  actor := .agent "agent-1"
  authority := .agent "agent-1"
  owner := .human "user-1"
  purpose := "assist"
  traceId := "trace-1"
  executionId := none
  enabledToolNamespaces := []
  now := "2026-03-01T00:00:00Z"

/-- What is to be authorized. -/
def requirement : CapabilityRequirement where
  resource := { «namespace» := "files", path := ["report"], owner := none }
  action := "read"

/-- An answer that allows it. -/
def decision : PortableDecision where
  allowed := true
  reasonCode := "allowed"
  matchedGrantId := some ("grant-1" : JsString)
  requiredAuthority := none
  metadata := none

/-- The host resolves a context, and the API allows the requirement. -/
def exchange : HandlerTrace :=
  [⟨.resolveContext (clientRequest .authorize requirement (some ("request-1" : JsString))),
      .ok context⟩,
    ⟨.api .authorize context requirement, .ok decision⟩]

theorem client_over_handler_authorize :
    Program.Finishes (overHttp ⟨true⟩ .authorize requirement (some ("request-1" : JsString)))
      exchange (.ok (.ok decision)) := by
  refine (@client_over_handler _ ⟨true⟩ .authorize requirement ?_ _ exchange _ ?_).mpr ?_
  · rintro sent ⟨⟩
    refine ⟨?_, rfl⟩
    simp [capabilityRequirementCodec, resourceRefCodec, requirement, Codec.view,
      Members.strict, Members.required, Members.optional, Members.empty, Codec.text, Codec.entry,
      Codec.list]
  · simp only [exchange, List.mem_cons, List.not_mem_nil, or_false, forall_eq_or_imp, forall_eq]
    refine ⟨trivial, ?_, rfl⟩
    simp [responseSchema, portableDecisionCodec, decision, Codec.view, Members.strict,
      Members.required, Members.optional, Members.empty, Codec.text, Codec.flag, Codec.entry]
  · exact .answer _ (.answer _ (.here _))

end Sample

end SharedOS.Http
