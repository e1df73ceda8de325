/-
SharedOS.Conformance.Assemble — one record from what a turn left behind.

Two streams tell of a turn: the result it returned, with its events, and the records the audit sink
kept. The assembler takes each fact from the stream that has it and derives none. Its one join is of
the tool calls: an operation is read from the audit, and a call the audit has nothing of, by its id,
is read from the event of its completion, as one the envelope refused.

Authority states are gathered by hash, in the order they are first seen, each with how often it was
(`authoritySnapshots`). Decisions are the audit's, in its order. An interrupted operation is carried
as interrupted: it may have taken effect, and a record that called it failed would say that it had not.

What a plugin stated of the run (its model, its prompt, the catalogue it saw) is lifted from the
metadata of the result, each fact by a guard of its own. A guard decides what reaches the record, and
the record's schema reads it again: where the two differ a whole record is lost
(`Conformance.LiftedFacts`).
-/
import SharedOS.Conformance.Record
import SharedOS.Contracts.Codecs
import SharedOS.Kernel.Recording

namespace SharedOS.Conformance

open SharedOS.Foundation SharedOS.Contracts SharedOS.Core SharedOS.Kernel

namespace Assemble

/-! ## Reading the result -/

/-- `result.metadata?.[key]`. -/
def resultMetadata (result : FullExecutionResult) (key : JsString) : Option Json :=
  (objectEntries result.metadata).lookup key

/-- The event is of the type. -/
def hasType (type : JsString) (e : FullExecutionEvent) : Bool := e.type = type

/-- `data[key]` of an event whose data is an object. -/
def eventMember (e : FullExecutionEvent) (key : JsString) : Option Json :=
  (objectEntries (some e.data)).lookup key

/-- The text of a value that is one. -/
def textOf : Option Json → Option JsString
  | some (.str s) => some s
  | _ => none

/-- `isContentHash`, and the hash. -/
def hashOf (v : Option Json) : Option JsString := (textOf v).bind contentHashSchema

/-- `isTokenCount`, and the count. -/
def countOf : Option Json → Option JsNumber
  | some (.num x) => if isInteger x && isNonnegative x then some x else none
  | _ => none

/-- The names a published boundary offered, as the turn's first event tells them. -/
def exposedTools (events : List FullExecutionEvent) : List JsString :=
  match (events.find? (hasType "turn.started")).bind fun e =>
      eventMember e "visibleTools" with
  | some (.arr items) => items.filterMap jsonText
  | _ => []

/-- `typeof v === "object" && v !== null` -/
def isObjectLike : Json → Bool
  | .arr _ | .obj _ => true
  | _ => false

/-- `terminalSource`: of the last failure that has data. -/
def terminalSource (events : List FullExecutionEvent) : Option FailureSource :=
  match events.reverse.find? fun e => hasType "turn.failed" e && isObjectLike e.data with
  | none => none
  | some e =>
    match eventMember e "source" with
    | some (.str s) =>
      if s = "runtime" then some .runtime else if s = "envelope" then some .envelope else none
    | _ => none

/-- The status of an ending. -/
def statusOf : FullTurnEnding → ExecutionStatus
  | .succeeded _ => .succeeded
  | .denied _ => .denied
  | .failed _ => .failed
  | .cancelled _ => .cancelled
  | .escalated _ => .escalated

/-- `terminalOutcome`. An escalated turn has no error, and is given a code all the same. -/
def terminalReasonCode : FullTurnEnding → Option JsString
  | .succeeded _ => none
  | .denied error | .failed error => some error.code
  | .cancelled error => error.map ProtocolError.code
  | .escalated _ => some "escalation_requested"

/-- The output of a turn that succeeded. -/
def outputOf : FullTurnEnding → Option Json
  | .succeeded output => some output
  | _ => none

/-- The escalation of a turn that escalated, as a record keeps it. -/
def escalationOf : FullTurnEnding → Option EscalationRecord
  | .escalated e =>
    some
      { reason := e.reason
        reviewer := e.reviewer
        requestedAt := e.requestedAt
        requestedAuthority := e.requestedAuthority }
  | _ => none

/-- The shape of what a delegate states when it asks to escalate. -/
def escalationAskedCodec : Codec EscalationAsked :=
  (((Members.empty.required "tool" .text (by decide)).required "reason" .text
    (by decide)).strict).view
    (fun ((_, tool), reason) => { tool, reason }) (fun a => (((), a.tool), a.reason)) (fun _ => rfl)

theorem id_fresh : ("id" : JsString) ∉ Members.empty.keys := by decide

/-- The shape of a runtime's manifest. -/
def runtimeManifestCodec : Codec RuntimeManifest :=
  (((((Members.empty.required "id" .text id_fresh).required "version" .text
    (by decide)).required "protocolVersion" .text (by decide)).optional "metadata" .json
    (by decide)).strict).view
    (fun ((((_, id), version), protocolVersion), metadata) =>
      { id, version, protocolVersion, metadata })
    (fun m => (((((), m.id), m.version), m.protocolVersion), m.metadata)) (fun _ => rfl)

/-- `escalationAsked`: a malformed statement reads as none. -/
def escalationAsked (result : FullExecutionResult) : Option EscalationAsked :=
  ((resultMetadata result "escalationAsked").bind escalationAskedCodec.read).bind
    escalationAskedSchema

/-- `runtimeManifestOf`, which throws where there is none. -/
def runtimeManifestOf (result : FullExecutionResult) : Option RuntimeManifest :=
  ((resultMetadata result "runtime").bind runtimeManifestCodec.read).bind runtimeManifestSchema

/-! ## Reading the audit -/

/-- An authority state, as the first record of it has it. -/
def observationOf (e : AuditEvent) (hash : JsString) : AuthoritySnapshotRecord where
  hash := hash
  grantIds :=
    match (objectEntries e.metadata).lookup ("grantIds" : JsString) with
    | some (.arr items) => items.filterMap jsonText
    | _ => []
  grantCount :=
    match (objectEntries e.metadata).lookup ("grantCount" : JsString) with
    | some (.num x) => x
    | _ => .finite 0
  firstSeenAt := e.at_
  lastSeenAt := e.at_
  observations := .finite 1

/-- The same state, seen once more. -/
def observedAgain (snapshot : AuthoritySnapshotRecord) (e : AuditEvent) : AuthoritySnapshotRecord :=
  { snapshot with
    lastSeenAt := e.at_
    observations :=
      match snapshot.observations with
      | .finite q => .finite (q + 1)
      | x => x }

/-- One event of the audit, in the order its snapshots were first seen. -/
def observe (snapshots : List AuthoritySnapshotRecord) (e : AuditEvent) :
    List AuthoritySnapshotRecord :=
  match e.type, e.authorityHash with
  | .authorityResolved, some hash =>
    if snapshots.any fun snapshot => snapshot.hash = hash then
      snapshots.map fun snapshot => if snapshot.hash = hash then observedAgain snapshot e else snapshot
    else snapshots ++ [observationOf e hash]
  | _, _ => snapshots

/-- The authority states of a turn, in the order they are first seen. -/
def authoritySnapshots (audit : List AuditEvent) : List AuthoritySnapshotRecord :=
  audit.foldl observe []

/-- The hash of the only authority state there was. -/
def stableAuthorityHash (audit : List AuditEvent) : Option JsString :=
  match authoritySnapshots audit with
  | [only] => some only.hash
  | _ => none

/-- A decision, read from its record. -/
def decisionOf (e : AuditEvent) : DecisionRecord where
  at_ := e.at_
  outcome := if e.outcome = .allowed then .allowed else .denied
  reasonCode := e.reason.getD (if e.outcome = .allowed then "allowed" else "denied")
  resource := e.resource
  action := e.action
  grantId := e.grantId
  authorityHash := e.authorityHash
  failClosed := e.failClosed = some true

/-- Every decision of the turn, in the order of the audit. -/
def decisions (audit : List AuditEvent) : List DecisionRecord :=
  (audit.filter fun e => e.type = .authorizationChecked).map decisionOf

/-! ## Operations -/

/-- `OPERATION_KINDS`. -/
def operationKind : AuditEventType → Option OperationKind
  | .toolInvoked => some .tool
  | .resourceInvoked => some .resource
  | .messageSent => some .message
  | _ => none

/-- The boundary an operation was answered at. A record that names none is the kernel's. -/
def operationSource : Option AuditSource → OperationSource
  | some .envelope => .envelope
  | some .kernel | none => .kernel

/-- An interrupted call is carried as itself: it may have taken effect. -/
def operationOutcome : AuditOutcome → OperationOutcome
  | .succeeded => .succeeded
  | .failed => .failed
  | .interrupted => .interrupted
  | .allowed | .denied | .escalated => .denied

/-- An operation, read from its record. -/
def recordedOperation (e : AuditEvent) : Option OperationRecord :=
  (operationKind e.type).map fun kind =>
    { at_ := e.at_
      kind
      source := operationSource e.source
      outcome := operationOutcome e.outcome
      operationId := e.operationId
      tool := e.tool
      resource := e.resource
      action := e.action
      grantId := e.grantId
      reasonCode := e.reason
      cause := e.cause
      failClosed := e.failClosed = some true }

/-- The ids of the tool operations the audit has. -/
def mediatedCallIds (mediated : List OperationRecord) : List (Option JsString) :=
  (mediated.filter fun o => o.kind = .tool).map OperationRecord.operationId

/-- The code is one for a trusted component that failed. -/
def isInfrastructureCode (code : JsString) : Bool :=
  code ∈ infrastructureDenialReasons.map AuthorizationReasonCode.text

/-- The operation an event of a completion is read as, where the audit has none under its id. -/
def envelopeOperation (mediated : List OperationRecord) (e : FullExecutionEvent) :
    Option OperationRecord :=
  if !hasType "tool.completed" e then none
  else
    match textOf (eventMember e "callId") with
    | none => none
    | some callId =>
      let status := textOf (eventMember e "status")
      let code := textOf (eventMember e "code")
      if some callId ∈ mediatedCallIds mediated ∨ status = some "succeeded" then none
      else
        some
          { at_ := e.occurredAt
            kind := .tool
            source := .envelope
            outcome := if status = some "failed" then .failed else .denied
            operationId := some callId
            tool := textOf (eventMember e "tool")
            resource := none
            action := none
            grantId := none
            reasonCode := code
            cause := none
            failClosed := code.any isInfrastructureCode }

/-- `envelopeOperations`. -/
def envelopeOperations (mediated : List OperationRecord) (events : List FullExecutionEvent) :
    List OperationRecord := events.filterMap (envelopeOperation mediated)

section Platform

variable [HostPlatform]

/-- `Date.parse(left.at) - Date.parse(right.at)` is not positive, or is no number. -/
def notLater (left right : OperationRecord) : Prop :=
  ∀ l ∈ HostPlatform.dateParse left.at_, ∀ r ∈ HostPlatform.dateParse right.at_, l ≤ r

instance : DecidableRel notLater := fun left right =>
  inferInstanceAs (Decidable (∀ l ∈ HostPlatform.dateParse left.at_,
    ∀ r ∈ HostPlatform.dateParse right.at_, l ≤ r))

/-- `operations`. -/
def operations (audit : List AuditEvent) (events : List FullExecutionEvent) :
    List OperationRecord :=
  let mediated := audit.filterMap recordedOperation
  (mediated ++ envelopeOperations mediated events).insertionSort notLater

/-- `elapsedMs`. -/
def elapsedMs (startedAt completedAt : JsString) : JsNumber :=
  match HostPlatform.dateParse startedAt, HostPlatform.dateParse completedAt with
  | some started, some completed => .finite (max 0 (completed - started) : ℤ)
  | _, _ => .finite 0

end Platform

end Assemble

/-! ## The record -/

open Assemble

/-- `ExecutionRecordSystemInput`: the runtime may be left to the result. -/
structure ExecutionRecordSystemInput where
  protocolVersion : JsString
  sharedOsVersion : JsString
  runtime : Option RuntimeManifest
  adapterId : JsString
  model : Option JsString
  modelProvider : Option JsString
  policyHash : JsString
  catalogHash : Option JsString
  toolCount : Option JsNumber
  promptHash : Option JsString
  toolPolicy : Option ToolPolicy
  metadata : Option Json

/-- What a host measured of a turn, and SharedOS cannot. -/
structure ExecutionRecordCostInput where
  inputTokens : Option JsNumber
  outputTokens : Option JsNumber
  infrastructureMs : Option JsNumber
  metadata : Option Json

/-- What a record is assembled from. -/
structure AssembleExecutionRecordInput where
  request : ExecutionRequest
  result : FullExecutionResult
  auditEvents : List AuditEvent
  experiment : ExperimentIdentity
  system : ExecutionRecordSystemInput
  state : Option StateRecord
  cost : Option ExecutionRecordCostInput
  auditRef : Option AuditRef
  recordedAt : Option JsString

namespace AssembleExecutionRecordInput

variable (input : AssembleExecutionRecordInput)

/-- Events from other traces are ignored. -/
def audit : List AuditEvent :=
  input.auditEvents.filter fun e => e.traceId = input.request.context.traceId

/-- The caller's own word stands over what is read from the result. -/
def systemIdentity (runtime : RuntimeManifest) : SystemIdentity where
  protocolVersion := input.system.protocolVersion
  sharedOsVersion := input.system.sharedOsVersion
  runtime := runtime
  adapterId := input.system.adapterId
  model := input.system.model.or (textOf (resultMetadata input.result "model"))
  modelProvider :=
    input.system.modelProvider.or (textOf (resultMetadata input.result "modelProvider"))
  policyHash := input.system.policyHash
  catalogHash := input.system.catalogHash.or (hashOf (resultMetadata input.result "catalogHash"))
  toolCount := input.system.toolCount.or
    ((hashOf (resultMetadata input.result "catalogHash")).map fun _ =>
      .finite (exposedTools input.result.events).length)
  promptHash := input.system.promptHash.or (hashOf (resultMetadata input.result "promptHash"))
  toolPolicy := input.system.toolPolicy
  metadata := input.system.metadata

/-- The parties of the turn and its authority states. -/
def authority : AuthorityRecord where
  principal := input.request.context.authority
  actor := input.request.context.actor
  owner := input.request.context.owner
  namespaceId := input.request.context.namespaceId
  purpose := input.request.context.purpose
  snapshots := authoritySnapshots input.audit
  stableAuthorityHash := stableAuthorityHash input.audit

/-- An event, as a record keeps it. -/
def recordedEvent (e : FullExecutionEvent) : RecordedEvent where
  version := e.version
  eventId := e.eventId
  executionId := e.executionId
  traceId := e.traceId
  sequence := .finite e.sequence
  type := e.type
  data := e.data
  occurredAt := e.occurredAt

variable [HostPlatform]

/-- What the turn did, from both streams. -/
def execution : ExecutionRecordExecution where
  executionId := input.result.executionId
  traceId := input.result.traceId
  agent := input.request.agent
  status := statusOf input.result.ending
  terminalReasonCode := terminalReasonCode input.result.ending
  endedBy := terminalSource input.result.events
  output := outputOf input.result.ending
  escalation := escalationOf input.result.ending
  escalationAsked := Assemble.escalationAsked input.result
  callsAfterEscalation := countOf (resultMetadata input.result "callsAfterEscalation")
  exposedTools := Assemble.exposedTools input.result.events
  requestedTools := input.request.tools.map ToolDefinition.name
  decisions := Assemble.decisions input.audit
  operations := Assemble.operations input.audit input.result.events
  events := input.result.events.map recordedEvent
  auditRef := input.auditRef

/-- What the turn cost, from both streams and the host. -/
def costRecord : CostRecord where
  startedAt := input.result.startedAt
  completedAt := input.result.completedAt
  elapsedMs := Assemble.elapsedMs input.result.startedAt input.result.completedAt
  infrastructureMs := input.cost.bind ExecutionRecordCostInput.infrastructureMs
  toolCalls := .finite (input.result.events.countP (hasType "tool.requested"))
  authorityLoads := .finite (input.audit.countP fun e => e.type = .authorityResolved)
  auditEvents := .finite input.audit.length
  inputTokens := (input.cost.bind ExecutionRecordCostInput.inputTokens).or
    (countOf (resultMetadata input.result "inputTokens"))
  outputTokens := (input.cost.bind ExecutionRecordCostInput.outputTokens).or
    (countOf (resultMetadata input.result "outputTokens"))
  metadata := input.cost.bind ExecutionRecordCostInput.metadata

/-- What is put together for the schema to read. -/
def draft (runtime : RuntimeManifest) : ExecutionRecord where
  version := "1"
  recordedAt := input.recordedAt.getD input.result.completedAt
  experiment := input.experiment
  system := input.systemIdentity runtime
  authority := input.authority
  execution := input.execution
  state := input.state.getD { before := none, after := none, diffRef := none }
  cost := input.costRecord

end AssembleExecutionRecordInput

/-- `assembleExecutionRecord`, which throws where there is no runtime to name and where what it put
together is no record. -/
def assembleExecutionRecord [HostPlatform] (input : AssembleExecutionRecordInput) :
    Option ExecutionRecord := do
  let runtime ← input.system.runtime.or (runtimeManifestOf input.result)
  executionRecordSchema (input.draft runtime)

end SharedOS.Conformance
