/-
SharedOS.Conformance.Record — the comparable unit of evidence for one turn.

A record holds what a turn was an instance of, the authority it observed, what it did, the state it
changed and what it cost. It states what happened and judges nothing: whether what happened was right
is the judge's to say, from the record and the receipts (`Conformance.Judge`). It carries no
arguments, results or payloads.

Every part has its schema, and the record's own is their conjunction. A field a turn did not have is
absent, never empty: a cost that nobody measured has no number, a turn that listed no catalogue has
no hash of one.

Numbers are the language's: a count must be whole and not negative, an elapsed time only not
negative, and infinity passes the second test and not the first. A hash is 64 lowercase hexadecimal
digits. The texts are trimmed by their schemas as everywhere in the contracts, so a record that was
parsed once parses again to itself.
-/
import SharedOS.Contracts.Message

namespace SharedOS.Conformance

open SharedOS.Foundation SharedOS.Contracts

/-! ## Numbers and hashes -/

/-- `.int()`. -/
def isInteger : JsNumber → Bool
  | .negZero => true
  | .finite q => q.den = 1
  | .nan | .posInfinity | .negInfinity => false

/-- `.nonnegative()`. -/
def isNonnegative : JsNumber → Bool
  | .negZero | .posInfinity => true
  | .finite q => 0 ≤ q
  | .nan | .negInfinity => false

/-- `.positive()`. -/
def isPositive : JsNumber → Bool
  | .posInfinity => true
  | .finite q => 0 < q
  | .nan | .negInfinity | .negZero => false

/-- A schema that tests a value and leaves it as it is. -/
def testSchema {α : Type} (test : α → Bool) (a : α) : Option α := if test a then some a else none

/-- `z.number().int().nonnegative()`. -/
def countSchema : JsNumber → Option JsNumber :=
  testSchema fun x => isInteger x && isNonnegative x

/-- `z.number().int().positive()`. -/
def positiveCountSchema : JsNumber → Option JsNumber :=
  testSchema fun x => isInteger x && isPositive x

/-- `z.number().nonnegative()`. -/
def elapsedSchema : JsNumber → Option JsNumber := testSchema isNonnegative

/-- `ContentHashSchema`. -/
def contentHashSchema : JsString → Option JsString := testSchema isContentHash

/-! ## What the run was an instance of -/

/-- What a run was seeded with: a text or a number. -/
inductive Seed where
  | text (s : JsString)
  | number (x : JsNumber)

/-- A seed that is a number is a whole one. -/
def seedSchema : Seed → Option Seed
  | .text s => some (.text s)
  | .number x => (testSchema isInteger x).map .number

/-- The experiment a turn belongs to, and the hashes of what it was run on. -/
structure ExperimentIdentity where
  experimentId : JsString
  taskId : JsString
  runId : JsString
  specHash : JsString
  worldHash : JsString
  evaluatorHash : JsString
  seed : Option Seed
  metadata : Option Json

/-- `ExperimentIdentitySchema`. -/
def experimentIdentitySchema (e : ExperimentIdentity) : Option ExperimentIdentity := do
  let experimentId ← identifierSchema e.experimentId
  let taskId ← identifierSchema e.taskId
  let runId ← identifierSchema e.runId
  let specHash ← contentHashSchema e.specHash
  let worldHash ← contentHashSchema e.worldHash
  let evaluatorHash ← contentHashSchema e.evaluatorHash
  let seed ← optionalSchema seedSchema e.seed
  let metadata ← optionalSchema jsonObjectSchema e.metadata
  some { experimentId, taskId, runId, specHash, worldHash, evaluatorHash, seed, metadata }

/-- What the runtime plugin says it is. -/
structure RuntimeManifest where
  id : JsString
  version : JsString
  protocolVersion : JsString
  metadata : Option Json

/-- `RuntimeManifestSchema`. -/
def runtimeManifestSchema (m : RuntimeManifest) : Option RuntimeManifest := do
  let id ← identifierSchema m.id
  let version ← identifierSchema m.version
  let protocolVersion ← protocolVersionSchema m.protocolVersion
  let metadata ← optionalSchema jsonObjectSchema m.metadata
  some { id, version, protocolVersion, metadata }

/-- Whether tools outside SharedOS were allowed to the harness. -/
inductive ToolPolicyMode where
  | strict
  | hybrid
  deriving DecidableEq

/-- Which tools of a harness were mediated, and which were not. -/
structure ToolPolicy where
  mode : ToolPolicyMode
  managedMcp : List JsString
  harnessLocal : List JsString
  externalDirect : List JsString

/-- `ToolPolicySchema`: something is mediated, and a strict policy has no external tool. -/
def toolPolicySchema (p : ToolPolicy) : Option ToolPolicy := do
  let managedMcp ← arraySchema identifierSchema 0 64 p.managedMcp
  let harnessLocal ← arraySchema toolNameSchema 0 256 p.harnessLocal
  let externalDirect ← arraySchema identifierSchema 0 64 p.externalDirect
  if (p.mode = .strict ∧ 0 < externalDirect.length) ∨ managedMcp.length = 0 then none
  else some { mode := p.mode, managedMcp, harnessLocal, externalDirect }

/-- The system the turn ran on, as far as it could be told. -/
structure SystemIdentity where
  protocolVersion : JsString
  sharedOsVersion : JsString
  runtime : RuntimeManifest
  adapterId : JsString
  model : Option JsString
  modelProvider : Option JsString
  policyHash : JsString
  catalogHash : Option JsString
  toolCount : Option JsNumber
  promptHash : Option JsString
  toolPolicy : Option ToolPolicy
  metadata : Option Json

/-- `SystemIdentitySchema`. -/
def systemIdentitySchema (s : SystemIdentity) : Option SystemIdentity := do
  let protocolVersion ← protocolVersionSchema s.protocolVersion
  let sharedOsVersion ← identifierSchema s.sharedOsVersion
  let runtime ← runtimeManifestSchema s.runtime
  let adapterId ← identifierSchema s.adapterId
  let model ← optionalSchema identifierSchema s.model
  let modelProvider ← optionalSchema identifierSchema s.modelProvider
  let policyHash ← contentHashSchema s.policyHash
  let catalogHash ← optionalSchema contentHashSchema s.catalogHash
  let toolCount ← optionalSchema countSchema s.toolCount
  let promptHash ← optionalSchema contentHashSchema s.promptHash
  let toolPolicy ← optionalSchema toolPolicySchema s.toolPolicy
  let metadata ← optionalSchema jsonObjectSchema s.metadata
  some { protocolVersion, sharedOsVersion, runtime, adapterId, model, modelProvider, policyHash,
         catalogHash, toolCount, promptHash, toolPolicy, metadata }

/-! ## The authority the turn observed -/

/-- One authority state of a turn: when it was first and last seen, and how often. -/
structure AuthoritySnapshotRecord where
  hash : JsString
  grantIds : List JsString
  grantCount : JsNumber
  firstSeenAt : JsString
  lastSeenAt : JsString
  observations : JsNumber

/-- `AuthoritySnapshotSchema`: it was seen at least once. -/
def authoritySnapshotRecordSchema [HostPlatform] (s : AuthoritySnapshotRecord) :
    Option AuthoritySnapshotRecord := do
  let hash ← contentHashSchema s.hash
  let grantIds ← arraySchema identifierSchema 0 256 s.grantIds
  let grantCount ← countSchema s.grantCount
  let firstSeenAt ← timestampSchema s.firstSeenAt
  let lastSeenAt ← timestampSchema s.lastSeenAt
  let observations ← positiveCountSchema s.observations
  some { hash, grantIds, grantCount, firstSeenAt, lastSeenAt, observations }

/-- The parties of a turn, and every authority state it was decided on. -/
structure AuthorityRecord where
  principal : Address
  actor : Address
  owner : Address
  namespaceId : JsString
  purpose : JsString
  snapshots : List AuthoritySnapshotRecord
  stableAuthorityHash : Option JsString

/-- `AuthorityRecordSchema`. -/
def authorityRecordSchema [HostPlatform] (a : AuthorityRecord) : Option AuthorityRecord := do
  let principal ← a.principal.schema
  let actor ← a.actor.schema
  let owner ← a.owner.schema
  let namespaceId ← identifierSchema a.namespaceId
  let purpose ← boundedString 512 a.purpose
  let snapshots ← arraySchema authoritySnapshotRecordSchema 0 256 a.snapshots
  let stableAuthorityHash ← optionalSchema contentHashSchema a.stableAuthorityHash
  some { principal, actor, owner, namespaceId, purpose, snapshots, stableAuthorityHash }

/-! ## What the turn did -/

/-- How one decision came out. -/
inductive DecisionOutcome where
  | allowed
  | denied
  deriving DecidableEq

/-- One authorization decision, with the code it was made under. -/
structure DecisionRecord where
  at_ : JsString
  outcome : DecisionOutcome
  reasonCode : JsString
  resource : Option ResourceRef
  action : Option JsString
  grantId : Option JsString
  authorityHash : Option JsString
  failClosed : Bool

/-- `DecisionRecordSchema`. -/
def decisionRecordSchema [HostPlatform] (d : DecisionRecord) : Option DecisionRecord := do
  let at_ ← timestampSchema d.at_
  let reasonCode ← identifierSchema d.reasonCode
  let resource ← optionalSchema resourceRefSchema d.resource
  let action ← optionalSchema identifierSchema d.action
  let grantId ← optionalSchema identifierSchema d.grantId
  let authorityHash ← optionalSchema contentHashSchema d.authorityHash
  some { at_, outcome := d.outcome, reasonCode, resource, action, grantId, authorityHash,
         failClosed := d.failClosed }

/-- What sort of operation was mediated. -/
inductive OperationKind where
  | tool
  | resource
  | message
  deriving DecidableEq

/-- The boundary an operation was performed or refused at. -/
inductive OperationSource where
  | kernel
  | envelope
  deriving DecidableEq

/-- How an operation came out. An interrupted one may have taken effect. -/
inductive OperationOutcome where
  | succeeded
  | denied
  | failed
  | interrupted
  deriving DecidableEq

/-- A mediated operation and its outcome. No arguments, results or payloads. -/
structure OperationRecord where
  at_ : JsString
  kind : OperationKind
  source : OperationSource
  outcome : OperationOutcome
  operationId : Option JsString
  tool : Option JsString
  resource : Option ResourceRef
  action : Option JsString
  grantId : Option JsString
  reasonCode : Option JsString
  cause : Option JsString
  failClosed : Bool

/-- `OperationRecordSchema`. -/
def operationRecordSchema [HostPlatform] (o : OperationRecord) : Option OperationRecord := do
  let at_ ← timestampSchema o.at_
  let operationId ← optionalSchema identifierSchema o.operationId
  let tool ← optionalSchema identifierSchema o.tool
  let resource ← optionalSchema resourceRefSchema o.resource
  let action ← optionalSchema identifierSchema o.action
  let grantId ← optionalSchema identifierSchema o.grantId
  let reasonCode ← optionalSchema identifierSchema o.reasonCode
  let cause ← optionalSchema identifierSchema o.cause
  some { at_, kind := o.kind, source := o.source, outcome := o.outcome, operationId, tool,
         resource, action, grantId, reasonCode, cause, failClosed := o.failClosed }

/-- What a delegate states when it recognises the escalation affordance. -/
structure EscalationAsked where
  tool : JsString
  reason : JsString

/-- A reason of at most 512 code units, untrimmed. -/
def escalationAskedSchema (e : EscalationAsked) : Option EscalationAsked := do
  let tool ← identifierSchema e.tool
  let reason ← testSchema (fun s : JsString => s.length ≤ 512) e.reason
  some { tool, reason }

/-- An event as it stands in a record: any type, with any data. -/
structure RecordedEvent where
  version : JsString
  eventId : JsString
  executionId : JsString
  traceId : JsString
  sequence : JsNumber
  type : JsString
  data : Json
  occurredAt : JsString

/-- `ExecutionEventSchema`. -/
def executionEventSchema [HostPlatform] (e : RecordedEvent) : Option RecordedEvent := do
  let version ← protocolVersionSchema e.version
  let eventId ← identifierSchema e.eventId
  let executionId ← identifierSchema e.executionId
  let traceId ← identifierSchema e.traceId
  let sequence ← countSchema e.sequence
  let type ← trimmedString 128 e.type
  let data ← jsonSchema e.data
  let occurredAt ← timestampSchema e.occurredAt
  some { version, eventId, executionId, traceId, sequence, type, data, occurredAt }

/-- An escalation with all it carries. It is always pending. -/
structure EscalationRecord where
  reason : JsString
  reviewer : Address
  requestedAt : JsString
  requestedAuthority : Option CapabilityRequest

/-- `EscalationSchema`. -/
def escalationSchema [HostPlatform] (e : EscalationRecord) : Option EscalationRecord := do
  let reason ← trimmedString 512 e.reason
  let reviewer ← e.reviewer.schema
  let requestedAt ← timestampSchema e.requestedAt
  let requestedAuthority ← optionalSchema capabilityRequestSchema e.requestedAuthority
  some { reason, reviewer, requestedAt, requestedAuthority }

/-- Where the audit of a turn can be found. -/
structure AuditRef where
  sink : JsString
  traceId : JsString
  eventCount : JsNumber

/-- `AuditRefSchema`. -/
def auditRefSchema (r : AuditRef) : Option AuditRef := do
  let sink ← identifierSchema r.sink
  let traceId ← identifierSchema r.traceId
  let eventCount ← countSchema r.eventCount
  some { sink, traceId, eventCount }

/-- How a turn ended. -/
inductive ExecutionStatus where
  | succeeded
  | denied
  | failed
  | cancelled
  | escalated
  deriving DecidableEq

/-- The word of a status. -/
def ExecutionStatus.text : ExecutionStatus → JsString
  | .succeeded => "succeeded"
  | .denied => "denied"
  | .failed => "failed"
  | .cancelled => "cancelled"
  | .escalated => "escalated"

/-- What a turn did: how it ended, what it was shown and asked for, every decision, operation and
event of it. -/
structure ExecutionRecordExecution where
  executionId : JsString
  traceId : JsString
  agent : Address
  status : ExecutionStatus
  terminalReasonCode : Option JsString
  endedBy : Option FailureSource
  output : Option Json
  escalation : Option EscalationRecord
  escalationAsked : Option EscalationAsked
  callsAfterEscalation : Option JsNumber
  exposedTools : List JsString
  requestedTools : List JsString
  decisions : List DecisionRecord
  operations : List OperationRecord
  events : List RecordedEvent
  auditRef : Option AuditRef

/-- The schema of what a turn did: each list bounded, each item parsed. -/
def executionRecordExecutionSchema [HostPlatform] (x : ExecutionRecordExecution) :
    Option ExecutionRecordExecution := do
  let executionId ← identifierSchema x.executionId
  let traceId ← identifierSchema x.traceId
  let agent ← x.agent.schema
  let terminalReasonCode ← optionalSchema identifierSchema x.terminalReasonCode
  let output ← optionalSchema jsonSchema x.output
  let escalation ← optionalSchema escalationSchema x.escalation
  let escalationAsked ← optionalSchema escalationAskedSchema x.escalationAsked
  let callsAfterEscalation ← optionalSchema countSchema x.callsAfterEscalation
  let exposedTools ← arraySchema identifierSchema 0 512 x.exposedTools
  let requestedTools ← arraySchema identifierSchema 0 512 x.requestedTools
  let decisions ← arraySchema decisionRecordSchema 0 4096 x.decisions
  let operations ← arraySchema operationRecordSchema 0 4096 x.operations
  let events ← arraySchema executionEventSchema 0 8192 x.events
  let auditRef ← optionalSchema auditRefSchema x.auditRef
  some { executionId, traceId, agent, status := x.status, terminalReasonCode,
         endedBy := x.endedBy, output, escalation, escalationAsked, callsAfterEscalation,
         exposedTools, requestedTools, decisions, operations, events, auditRef }

/-! ## The state it changed and what it cost -/

/-- One snapshot of the state. -/
structure StateReference where
  snapshotId : JsString
  hash : JsString
  capturedAt : Option JsString

/-- `StateReferenceSchema`. -/
def stateReferenceSchema [HostPlatform] (s : StateReference) : Option StateReference := do
  let snapshotId ← identifierSchema s.snapshotId
  let hash ← contentHashSchema s.hash
  let capturedAt ← optionalSchema timestampSchema s.capturedAt
  some { snapshotId, hash, capturedAt }

/-- The difference of two snapshots. -/
structure DiffReference where
  diffId : JsString
  hash : Option JsString

/-- `DiffReferenceSchema`. -/
def diffReferenceSchema (d : DiffReference) : Option DiffReference := do
  let diffId ← identifierSchema d.diffId
  let hash ← optionalSchema contentHashSchema d.hash
  some { diffId, hash }

/-- The state before and after, as far as a host captured it. -/
structure StateRecord where
  before : Option StateReference
  after : Option StateReference
  diffRef : Option DiffReference

/-- `StateRecordSchema`. -/
def stateRecordSchema [HostPlatform] (s : StateRecord) : Option StateRecord := do
  let before ← optionalSchema stateReferenceSchema s.before
  let after ← optionalSchema stateReferenceSchema s.after
  let diffRef ← optionalSchema diffReferenceSchema s.diffRef
  some { before, after, diffRef }

/-- What a turn cost. -/
structure CostRecord where
  startedAt : JsString
  completedAt : JsString
  elapsedMs : JsNumber
  infrastructureMs : Option JsNumber
  toolCalls : JsNumber
  authorityLoads : JsNumber
  auditEvents : JsNumber
  inputTokens : Option JsNumber
  outputTokens : Option JsNumber
  metadata : Option Json

/-- `CostRecordSchema`. -/
def costRecordSchema [HostPlatform] (c : CostRecord) : Option CostRecord := do
  let startedAt ← timestampSchema c.startedAt
  let completedAt ← timestampSchema c.completedAt
  let elapsedMs ← elapsedSchema c.elapsedMs
  let infrastructureMs ← optionalSchema elapsedSchema c.infrastructureMs
  let toolCalls ← countSchema c.toolCalls
  let authorityLoads ← countSchema c.authorityLoads
  let auditEvents ← countSchema c.auditEvents
  let inputTokens ← optionalSchema countSchema c.inputTokens
  let outputTokens ← optionalSchema countSchema c.outputTokens
  let metadata ← optionalSchema jsonObjectSchema c.metadata
  some { startedAt, completedAt, elapsedMs, infrastructureMs, toolCalls, authorityLoads,
         auditEvents, inputTokens, outputTokens, metadata }

/-! ## The record -/

/-- The record of one turn. -/
structure ExecutionRecord where
  version : JsString
  recordedAt : JsString
  experiment : ExperimentIdentity
  system : SystemIdentity
  authority : AuthorityRecord
  execution : ExecutionRecordExecution
  state : StateRecord
  cost : CostRecord

/-- `ExecutionRecordSchema`: every part passes its own. -/
def executionRecordSchema [HostPlatform] (r : ExecutionRecord) : Option ExecutionRecord := do
  let version ← testSchema (fun s : JsString => s = "1") r.version
  let recordedAt ← timestampSchema r.recordedAt
  let experiment ← experimentIdentitySchema r.experiment
  let system ← systemIdentitySchema r.system
  let authority ← authorityRecordSchema r.authority
  let execution ← executionRecordExecutionSchema r.execution
  let state ← stateRecordSchema r.state
  let cost ← costRecordSchema r.cost
  some { version, recordedAt, experiment, system, authority, execution, state, cost }

end SharedOS.Conformance
