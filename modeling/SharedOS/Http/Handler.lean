/-
SharedOS.Http.Handler — the HTTP application surface: one request, and the response it is given.

The handler asks its host for the context a request runs under, the API for the operation, and the
observability hook to hear of a failure. What any of them answers is open, a throw included, so a
statement about every run is a statement about every host. Only three fields of a request are read
here besides its path: the verb, the request id and the body. The rest is the host's to read when it
resolves a context.

A response refuses a status outside its range, and one that must not carry a body. The handler writes
the status a thrown error names, so that is the one way it has left of rejecting (`responseStatus`).
-/
import SharedOS.Foundation.Program
import SharedOS.Http.Routes

namespace SharedOS.Http

open SharedOS.Foundation SharedOS.Contracts

/-! ## Requests and responses -/

/-- A request, as the handler reads it. -/
structure HttpRequest where
  method : JsString
  pathname : JsString
  /-- The `x-request-id` header. -/
  requestId : Option JsString
  /-- The text of the body, or the failure to read it. -/
  body : Settled JsString

/-- A response, as the handler writes it. -/
structure HttpResponse where
  status : ℤ
  /-- The `x-request-id` header. -/
  requestId : JsString
  body : JsString
  deriving DecidableEq

/-- `response.ok`. -/
def HttpResponse.ok (response : HttpResponse) : Bool := 200 ≤ response.status && response.status ≤ 299

/-- A failure of the request as a request. A host may throw one under a code of its own. -/
structure SharedOSHttpError where
  status : ℤ
  code : JsString
  message : JsString
  deriving DecidableEq

/-- What a host, the API or the handler throws: one of the errors above, or anything else, of which
only its `code` is ever looked at. -/
inductive Thrown where
  | http (error : SharedOSHttpError)
  | other (code : Option JsString)
  deriving DecidableEq

/-- `HttpError`. -/
def httpError (status : ℤ) (code : SharedOSApiErrorCode) (message : JsString) : Thrown :=
  .http { status, code := code.text, message }

/-! ## The host and the API -/

/-- What the handler asks of its host. -/
inductive HandlerOp where
  /-- `crypto.randomUUID`. -/
  | randomUUID
  | resolveContext (request : HttpRequest)
  /-- One operation of the `SharedOSApi`, under the context resolved for the request. -/
  | api (route : SharedOSRouteName) (context : AccessContext) (body : RouteRequest route)
  | onError (error : Thrown) (request : HttpRequest) (requestId : JsString)

/-- The answers. What may throw answers so. -/
abbrev HandlerOp.Answer : HandlerOp → Type
  | .randomUUID => JsString
  | .resolveContext _ => Except Thrown AccessContext
  | .api route _ _ => Except Thrown (RouteResponse route)
  | .onError _ _ _ => Settled Unit

/-- The programs of the handler. -/
abbrev HandlerM := Program HandlerOp HandlerOp.Answer Thrown

/-- What the handler has asked, with the answers. -/
abbrev HandlerTrace := List (Event HandlerOp.Answer)

/-- One question, answered. -/
def query (o : HandlerOp) : HandlerM o.Answer := Program.perform o

/-- Which of the handler's options are there. -/
structure SharedOSHttpOptions where
  hasOnError : Bool

/-! ## Responses -/

section Respond

variable [HostPlatform]

/-- The status `Response.json` gives a response, an `unsigned short`; or the throw of the constructor
when it is out of range, or is one that comes without a body. -/
def responseStatus (status : ℤ) : Option ℤ :=
  let short := status % 65536
  if 200 ≤ short ∧ short ≤ 599 ∧ short ≠ 204 ∧ short ≠ 205 ∧ short ≠ 304 then some short else none

/-- A JSON response under the request's id. -/
def json (payload : Json) (status : ℤ) (requestId : JsString) : Except Thrown HttpResponse :=
  match responseStatus status with
  | some status =>
    .ok { status, requestId, body := payload.stringify HostPlatform.numberToString }
  | none => .error (.other none)

/-- What an error answer says. -/
def errorBody (requestId : JsString) : Thrown → ℤ × SharedOSApiErrorBody
  | .http error => (error.status,
      { code := error.code, message := error.message, requestId := some requestId })
  | .other code =>
    if code = some SharedOSApiErrorCode.permissionDenied.text then
      (403, { code := SharedOSApiErrorCode.permissionDenied.text,
              message := "No matching capability grant allows this operation."
              requestId := some requestId })
    else
      (500, { code := SharedOSApiErrorCode.internalError.text,
              message := "SharedOS request failed.", requestId := some requestId })

/-- `errorResponse`: the status and the body of what was thrown. -/
def errorResponse (error : Thrown) (requestId : JsString) : Except Thrown HttpResponse :=
  json (apiErrorCodec.write (errorBody requestId error).2) (errorBody requestId error).1 requestId

end Respond

/-! ## Routing -/

/-- The verbs of a path, each with the operation it is, in the order of the table. -/
def routesByPath (pathname : JsString) : List SharedOSRouteName :=
  SharedOSRouteName.all.filter fun route => route.path = pathname

/-- Texts with a separator between them. -/
def joinTexts (separator : JsString) : List JsString → JsString
  | [] => []
  | [text] => text
  | text :: rest => text ++ separator ++ joinTexts separator rest

/-- `resolveRoute`: by path first, then by verb. -/
def resolveRoute (request : HttpRequest) : Except Thrown SharedOSRouteName :=
  match routesByPath request.pathname with
  | [] => .error (httpError 404 .notFound "SharedOS endpoint not found.")
  | verbs =>
    match verbs.find? fun route => route.method.text = request.method with
    | some route => .ok route
    | none => .error (httpError 405 .methodNotAllowed
        (JsString.ofString "Use " ++ joinTexts " or " (verbs.map fun route => route.method.text) ++
          JsString.ofString " for this endpoint."))

/-! ## Serving -/

section Serve

variable [HostPlatform]

/-- `parseBody`: JSON first, then the schema of the route. -/
def parseBody {α : Type} (request : HttpRequest) (schema : WireSchema α) : Except Thrown α :=
  match request.body with
  | .rejected => .error (httpError 400 .invalidJson "Request body must be valid JSON.")
  | .fulfilled text =>
    match jsonParse text with
    | none => .error (httpError 400 .invalidJson "Request body must be valid JSON.")
    | some body =>
      match schema.safeParse body with
      | none => .error (httpError 400 .invalidRequest "Request body does not match the v1 contract.")
      | some data => .ok data

/-- What the request asks its route with. -/
def routeBody (request : HttpRequest) {α : Type} : RequestSchema α → Except Thrown α
  | .absent => .ok ()
  | .body wire => parseBody request wire

/-- A message that was only accepted is answered so. -/
def successStatus : (route : SharedOSRouteName) → RouteResponse route → ℤ
  | .sendMessage, result =>
    match result.outcome with
    | .accepted => 202
    | _ => 200
  | _, _ => 200

/-- The answer of the one route without a context. -/
def healthResponse (requestId : JsString) : HandlerM HttpResponse :=
  Program.ofExcept (json (sharedOsHealthCodec.write ⟨PROTOCOL_VERSION⟩) 200 requestId)

/-- Ask the API, and say what it answered. -/
def serveRoute (request : HttpRequest) (requestId : JsString) (context : AccessContext)
    (route : SharedOSRouteName) : HandlerM HttpResponse :=
  if route = .health then healthResponse requestId
  else do
    let body ← Program.ofExcept (routeBody request (requestSchema route))
    let answer ← query (.api route context body)
    let result ← Program.ofExcept answer
    Program.ofExcept
      (json ((responseSchema route).codec.write result) (successStatus route result) requestId)

/-- The host's context, parsed before it is used. -/
def resolveAccessContext (request : HttpRequest) : HandlerM AccessContext := do
  let answer ← query (.resolveContext request)
  let resolved ← Program.ofExcept answer
  match accessContextSchema resolved with
  | some context => pure context
  | none =>
    .throw (httpError 500 .invalidAccessContext "The host returned an invalid access context.")

/-- `routeRequest`. -/
def routeRequest (request : HttpRequest) (requestId : JsString) : HandlerM HttpResponse :=
  if request.pathname = SharedOSRouteName.health.path then do
    let _ ← Program.ofExcept (resolveRoute request)
    healthResponse requestId
  else do
    let context ← resolveAccessContext request
    let route ← Program.ofExcept (resolveRoute request)
    serveRoute request requestId context route

/-- The id a request goes by. -/
def requestIdOf (request : HttpRequest) : HandlerM JsString :=
  match request.requestId with
  | some requestId => pure requestId
  | none => query .randomUUID

/-- A hook that throws does not replace the response. -/
def reportError (options : SharedOSHttpOptions) (error : Thrown) (request : HttpRequest)
    (requestId : JsString) : HandlerM Unit :=
  if options.hasOnError then do
    let _ ← query (.onError error request requestId)
    pure ()
  else pure ()

/-- `createSharedOSHandler`. -/
def handler (options : SharedOSHttpOptions) (request : HttpRequest) : HandlerM HttpResponse := do
  let requestId ← requestIdOf request
  match ← (routeRequest request requestId).attempt with
  | .ok response => pure response
  | .error error =>
    reportError options error request requestId
    Program.ofExcept (errorResponse error requestId)

end Serve

end SharedOS.Http
