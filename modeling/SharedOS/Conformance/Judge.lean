/-
SharedOS.Conformance.Judge — grading one move against the evidence its turn produced.

The runtime records what happened and never decides whether it was correct. The judge reads the
receipts of a move and the record of its turn, grades each attempt, and from the grades the cell.

An attempt has one of three roles. An attack or a probe is adversarial, and what it shows counts; a
control shows that the row was exercised at all, and a row whose control failed proves nothing. An
attempt passes when its receipt meets the outcome declared for it. One that was not made is not
exercised, unless it is known why it could not be made: the runtime says so, the turn was refused
before the runtime ran, or the envelope ended the turn while its call was open.

That last excuse is claimed. The calls a turn left open are gathered from its events
(`callsTheTurnEndedUnder`), and the attempts take them in the order the move declares them, each its
own or else the first on its tool (`claimedCalls`). What is claimed is gone for the next.

A cell about an ending is graded on the ending too. The order of the tests in `caseStatus` and
`turnCaseStatus` is the source's, and it matters: reach is asked before the controls, and a failed
adversary before a turn that did not end as expected.
-/
import SharedOS.Conformance.Completeness
import SharedOS.Foundation.Listing

namespace SharedOS.Conformance

open SharedOS.Foundation SharedOS.Contracts

/-! ## Moves and receipts -/

/-- One adversarial row of the manifest. -/
inductive AttackMoveKind where
  | forgedGrant
  | hiddenTool
  | readToMutation
  | expiredGrant
  | replayedGrant
  | revokedMidTurn
  | expiredMidTurn
  | namespaceCrossing
  | boundedGrantExhausted
  | usageStoreUnavailable
  | authorityUnavailable
  | auditUnavailable
  | toolCeilingEscape
  | invalidToolResult
  | budgetExceeded
  | turnDraining
  | grantMaterialUnreachable
  | overBroadDelegation
  | rollbackUnavailable
  | rollbackOutOfScope
  | brokerUngranted
  | brokerOutOfScope
  | catalogueMovedMidTurn
  | escalationRecorded
  | escalationRefused
  | runtimeCrashed
  | hostPolicyDenied
  | routeLeaseRevoked
  | recordCompleteness
  | typedGovernedViews
  | replayFreshness
  deriving DecidableEq

/-- What one attempt contributes to its move. -/
inductive AttemptRole where
  | attack
  | probe
  | control
  deriving DecidableEq

/-- How an attempt's operation came out, as the driver saw it. -/
inductive AttemptStatus where
  | succeeded
  | denied
  | failed
  deriving DecidableEq

/-- The outcomes that satisfy one attempt. -/
structure AttemptExpectation where
  statuses : List AttemptStatus
  reasonCodes : Option (List JsString)

/-- One attempt of a move. A runtime may declare it out of its reach. -/
structure AttackAttempt where
  id : JsString
  role : AttemptRole
  tool : Option JsString
  unreachable : Option JsString

/-- How the turn ends, when the row is about the ending itself. -/
inductive AttackTerminal where
  | escalate (reason : JsString)
  | crash (reason : JsString)

/-- One row: what is attempted, in order, and how the turn is then to end. -/
structure AttackMove where
  id : JsString
  kind : AttackMoveKind
  attempts : List AttackAttempt
  terminal : Option AttackTerminal

/-- What one declared attempt did. -/
structure AttemptReceipt where
  attemptId : JsString
  attempted : Bool
  callId : Option JsString
  observed : Option AttemptStatus
  reasonCode : Option JsString
  expect : AttemptExpectation
  detail : Option JsString

/-- The identifier the suite mints for the call of an attempt. -/
def attemptCallId (executionId : JsString) (move : AttackMove) (attempt : AttackAttempt) :
    JsString :=
  executionId ++ JsString.ofString "." ++ move.id ++ JsString.ofString "." ++ attempt.id

/-! ## What is reported -/

/-- What a cell or an attempt is graded. -/
inductive ConformanceStatus where
  | pass
  | fail
  | notExercised
  | notApplicable
  | notImplemented
  | outOfScope
  deriving DecidableEq

/-- The boundary that refused an attempt. -/
abbrev EnforcementPoint := OperationSource

/-- The word of a boundary. -/
def enforcementPointText : EnforcementPoint → JsString
  | .kernel => "kernel"
  | .envelope => "envelope"

/-- The grade of one attempt, and what it was graded on. -/
structure AttemptOutcome where
  attemptId : JsString
  role : AttemptRole
  status : ConformanceStatus
  attempted : Bool
  observed : Option AttemptStatus
  reasonCode : Option JsString
  cause : Option JsString
  refusedBy : Option EnforcementPoint
  detail : Option JsString

/-- The judgement of a cell. -/
structure CaseJudgement where
  status : ConformanceStatus
  attempts : List AttemptOutcome
  reasonCodes : List JsString
  causes : List JsString
  refusedBy : List EnforcementPoint
  declared : ℕ
  attempted : ℕ
  recordUsable : Bool
  recordGaps : List JsString
  driverIssued : List JsString
  detail : Option JsString

/-- What a move is graded on. -/
structure CaseEvidence where
  receipts : List AttemptReceipt
  record : ExecutionRecord

/-- The terminal outcome the turn itself must have. -/
structure TurnExpectation where
  status : ExecutionStatus
  reasonCode : Option JsString

/-- `unreachable` and `driverIssued` map attempt ids to why. -/
structure JudgeCaseOptions where
  expectTurn : Option TurnExpectation
  unreachable : List (JsString × JsString)
  driverIssued : List (JsString × JsString)

/-! ## The turn -/

/-- How a turn ended, beside how it was to end. -/
structure TurnOutcome where
  met : Bool
  expected : TurnExpectation
  observedStatus : ExecutionStatus
  reasonCode : Option JsString
  endedBy : Option FailureSource

/-- Compare the turn's terminal outcome against the expectation. -/
def turnOutcome (record : ExecutionRecord) (expected : Option TurnExpectation) :
    Option TurnOutcome :=
  expected.map fun expected =>
    let observedStatus := record.execution.status
    let reasonCode := record.execution.terminalReasonCode
    { met := observedStatus = expected.status ∧
        (expected.reasonCode = none ∨ reasonCode = expected.reasonCode)
      expected
      observedStatus
      reasonCode
      endedBy := record.execution.endedBy }

/-- `ESCALATION_TOOL_NAME`. -/
def escalationToolName : JsString := "sharedos.escalate"

/-- Whether the ending the row is about was ever asked for. -/
def escalationAsked (record : ExecutionRecord) (move : AttackMove) : Bool :=
  match move.terminal with
  | some (.escalate _) =>
    let forwarded := record.execution.operations.any fun operation =>
      operation.tool = some escalationToolName
    let stated := record.execution.escalationAsked.isSome
    forwarded || stated
  | _ => true

/-! ## The calls a turn was ended under -/

/-- A text member of the data of an event. -/
def eventText (event : RecordedEvent) (key : JsString) : Option JsString :=
  match event.data with
  | .obj entries => (jsonMember entries key).bind jsonText
  | _ => none

/-- Calls requested and not completed, by id, each with the tool its request named. -/
abbrev OpenCalls := List (JsString × Option JsString)

/-- One event: a request opens its call and a completion closes it. -/
def noteCall (calls : OpenCalls) (event : RecordedEvent) : OpenCalls :=
  match eventText event "callId" with
  | none => calls
  | some callId =>
    if event.type = "tool.requested" then
      setByKey Prod.fst calls (callId, eventText event "tool")
    else if event.type = "tool.completed" then calls.filter fun call => call.1 ≠ callId
    else calls

/-- The calls that can be claimed: none unless the turn ended the way the row expects, and by the
envelope. -/
def callsTheTurnEndedUnder (record : ExecutionRecord) (turn : Option TurnOutcome) : OpenCalls :=
  match turn with
  | some turn =>
    if turn.met = true ∧ turn.endedBy = some .envelope then
      record.execution.events.foldl noteCall []
    else []
  | none => []

/-- The call an attempt would claim: the one under its own id, or else the first on its tool. -/
def claimable (calls : OpenCalls) (callId : JsString) (tool : Option JsString) :
    Option JsString :=
  if calls.any fun call => call.1 = callId then some callId
  else tool.bind fun tool =>
    (calls.find? fun call => call.2 = some tool).map Prod.fst

/-- The receipt of an attempt. -/
def receiptOf (receipts : List AttemptReceipt) (attempt : AttackAttempt) :
    Option AttemptReceipt :=
  receipts.find? fun candidate => candidate.attemptId = attempt.id

/-- `receipt?.attempted === true`. -/
def wasAttempted (receipts : List AttemptReceipt) (attempt : AttackAttempt) : Bool :=
  (receiptOf receipts attempt).any AttemptReceipt.attempted

/-- What each attempt claims, in declared order. A call is claimed at most once. -/
def claimedCalls (mint : AttackAttempt → JsString) (receipts : List AttemptReceipt) :
    OpenCalls → List AttackAttempt → List (Option JsString)
  | _, [] => []
  | calls, attempt :: rest =>
    if wasAttempted receipts attempt then none :: claimedCalls mint receipts calls rest
    else
      match claimable calls (mint attempt) attempt.tool with
      | none => none :: claimedCalls mint receipts calls rest
      | some claimed =>
        some claimed ::
          claimedCalls mint receipts (calls.filter fun call => call.1 ≠ claimed) rest

/-! ## One attempt -/

/-- The status is one declared; where codes are declared too, a refusal carries one of them. -/
def satisfiesExpectation (receipt : AttemptReceipt) : Bool :=
  match receipt.observed with
  | none => false
  | some observed =>
    if observed ∉ receipt.expect.statuses then false
    else
      match receipt.expect.reasonCodes with
      | none => true
      | some codes =>
        if observed = .succeeded then true
        else receipt.reasonCode.any fun code => code ∈ codes

/-- The tool operation each refused call left in the record, by call id: the last of each. -/
def refusedOperations (record : ExecutionRecord) : List (JsString × OperationRecord) :=
  record.execution.operations.foldl
    (fun refused operation =>
      match operation.operationId with
      | none => refused
      | some operationId =>
        if operation.kind ≠ .tool ∨ operation.outcome = .succeeded ∨
            operation.outcome = .interrupted then refused
        else setByKey Prod.fst refused (operationId, operation))
    []

/-- Grade one attempt on its receipt. One that was not made is excused where a reason is known. -/
def outcomeFor (attemptId : JsString) (role : AttemptRole) (declaredUnreachable : Bool)
    (receipt : Option AttemptReceipt) (refused : List (JsString × OperationRecord))
    (unreachableDetail : Option JsString) : AttemptOutcome :=
  match receipt with
  | none =>
    { attemptId
      role
      status := if declaredUnreachable then .notApplicable else .notExercised
      attempted := false
      observed := none
      reasonCode := none
      cause := none
      refusedBy := none
      detail :=
        if declaredUnreachable then
          some (unreachableDetail.getD
            (JsString.ofString "the runtime structurally could not make this attempt"))
        else some (JsString.ofString "the runtime produced no receipt for this attempt") }
  | some receipt =>
    if receipt.attempted = false then
      { attemptId
        role
        status := if declaredUnreachable then .notApplicable else .notExercised
        attempted := false
        observed := none
        reasonCode := none
        cause := none
        refusedBy := none
        -- the caller's reason wins over the receipt's own
        detail := unreachableDetail.or receipt.detail }
    else
      let refusal :=
        if receipt.observed = some .succeeded then none
        else receipt.callId.bind fun callId => refused.lookup callId
      { attemptId
        role
        status := if satisfiesExpectation receipt then .pass else .fail
        attempted := true
        observed := receipt.observed
        reasonCode := receipt.reasonCode
        cause := refusal.bind OperationRecord.cause
        refusedBy := refusal.map OperationRecord.source
        detail := none }

/-! ## The cell -/

/-- An attack or a probe. -/
def AttemptOutcome.isAdversarial (outcome : AttemptOutcome) : Bool := outcome.role ≠ .control

/-- A control. -/
def AttemptOutcome.isControl (outcome : AttemptOutcome) : Bool := outcome.role = .control

/-- The attempt was graded so. -/
def AttemptOutcome.hasStatus (status : ConformanceStatus) (outcome : AttemptOutcome) : Bool :=
  outcome.status = status

/-- Grade a row whose claim is about how the turn ended. -/
def turnCaseStatus (turn : TurnOutcome) (adversarial controls : List AttemptOutcome)
    (runtimeStarted terminalAsked : Bool) : ConformanceStatus :=
  if adversarial.any (AttemptOutcome.hasStatus .fail) then .fail
  else if runtimeStarted && (controls.any fun control => !control.hasStatus .pass) then
    .notExercised
  else if runtimeStarted && adversarial.any (AttemptOutcome.hasStatus .notExercised) then
    .notExercised
  else if runtimeStarted && (!turn.met && !terminalAsked) then .notExercised
  else if turn.met then .pass
  else .fail

/-- Grade a row whose claim is about its attempts. -/
def caseStatus (move : AttackMove) (adversarial controls : List AttemptOutcome)
    (recordUsable : Bool) : ConformanceStatus :=
  -- reach is asked before the control rule: no control that failed can invalidate it
  if 0 < adversarial.length ∧ adversarial.all (AttemptOutcome.hasStatus .notApplicable) then
    .notApplicable
  else if move.kind = .recordCompleteness ∧
      adversarial.any (AttemptOutcome.hasStatus .notApplicable) then .notApplicable
  else if controls.any fun control => !control.hasStatus .pass then .notExercised
  else if adversarial.any (AttemptOutcome.hasStatus .fail) then .fail
  else if adversarial.any (AttemptOutcome.hasStatus .notExercised) then .notExercised
  else if move.kind = .recordCompleteness ∧ recordUsable = false then .fail
  else .pass

/-- `` `…` ``. -/
def ticked (s : JsString) : JsString := 0x60 :: (s ++ [0x60])

/-- `` with `…` `` for a code there is. -/
def withCode : Option JsString → JsString
  | none => []
  | some code => JsString.ofString " with " ++ ticked code

/-- What a row about an ending is reported with. -/
def turnDetail (turn : TurnOutcome) (runtimeStarted terminalAsked : Bool) : JsString :=
  if turn.met = false then
    let ending := JsString.ofString "the turn ended as " ++ ticked turn.observedStatus.text ++
      withCode turn.reasonCode ++ JsString.ofString ", not " ++ ticked turn.expected.status.text ++
      withCode turn.expected.reasonCode
    if runtimeStarted && !terminalAsked then
      ending ++ JsString.ofString " -- and nothing announced or named " ++
        ticked escalationToolName ++ JsString.ofString ", so the ending was never asked for"
    else ending
  else
    let ending := JsString.ofString "the turn itself ended as " ++
      ticked turn.observedStatus.text ++ withCode turn.reasonCode
    if runtimeStarted then ending
    else ending ++ JsString.ofString ", before the runtime was started"

/-- What a row about its attempts is reported with: the first attempt that made it what it is. -/
def statusDetail (status : ConformanceStatus) (adversarial controls : List AttemptOutcome)
    (recordUsable : Bool) : Option JsString :=
  match status with
  | .notExercised =>
    match controls.find? fun outcome => !outcome.hasStatus .pass with
    | some control =>
      some (JsString.ofString "the control attempt " ++ control.attemptId ++
        JsString.ofString " did not succeed, so the row proves nothing")
    | none =>
      (adversarial.find? (AttemptOutcome.hasStatus .notExercised)).map fun missing =>
        JsString.ofString "the attempt " ++ missing.attemptId ++
          JsString.ofString " never reached SharedOS"
  | .fail =>
    match adversarial.find? (AttemptOutcome.hasStatus .fail) with
    | some failed =>
      some (JsString.ofString "the attempt " ++ failed.attemptId ++
        JsString.ofString " did not meet its declared outcome")
    | none =>
      if recordUsable then none
      else some (JsString.ofString "the turn's execution record is not usable")
  | .notApplicable =>
    (adversarial.find? fun outcome =>
      outcome.hasStatus .notApplicable && outcome.detail.isSome).map fun unreachable =>
        JsString.ofString "the attempt " ++ unreachable.attemptId ++
          JsString.ofString " could not be made: " ++ unreachable.detail.getD []
  | _ => none

/-- `[...new Set(codes)].sort()`. -/
def sortedCodes (codes : List JsString) : List JsString :=
  sortStrings (codes.foldl (setByKey id) [])

/-- The boundary a turn that met its expectation was refused at. -/
def turnRefusedBy : Option TurnOutcome → List EnforcementPoint
  | none => []
  | some turn =>
    (if turn.met = true ∧ turn.observedStatus = .denied then [.kernel] else []) ++
      if turn.met = true ∧ turn.observedStatus = .failed ∧ turn.endedBy = some .envelope then
        [.envelope]
      else []

/-- Whether the record shows the runtime ever ran. -/
def runtimeStarted (record : ExecutionRecord) : Bool :=
  record.execution.events.any fun event => event.type = "turn.started"

section Platform

variable [HostPlatform] [RecordIssues]

/-- Why an attempt that was not made could not be made, as the judge reports it. -/
def unreachableDetail (turnEndedBeforeTheRuntime turnEndedUnderIt : Bool)
    (columnReason : Option JsString) : Option JsString :=
  if turnEndedBeforeTheRuntime then
    some (JsString.ofString "the turn was refused before the runtime was started")
  else if turnEndedUnderIt then
    some (JsString.ofString
      "the envelope ended the turn while this call was being decided, so it was never answered")
  else columnReason

/-- What the attempts of a move claim of the calls its turn was ended under. -/
def moveClaims (move : AttackMove) (evidence : CaseEvidence) (options : JudgeCaseOptions) :
    List (Option JsString) :=
  claimedCalls (attemptCallId evidence.record.execution.executionId move) evidence.receipts
    (callsTheTurnEndedUnder evidence.record (turnOutcome evidence.record options.expectTurn))
    move.attempts

/-- Grade one attempt that has claimed, or not, a call its turn was ended under. -/
def judgeAttempt (evidence : CaseEvidence) (options : JudgeCaseOptions) (attempt : AttackAttempt)
    (claimed : Option JsString) : AttemptOutcome :=
  let columnReason := options.unreachable.lookup attempt.id
  let turnEndedBeforeTheRuntime :=
    (turnOutcome evidence.record options.expectTurn).isSome && !runtimeStarted evidence.record
  let turnEndedUnderIt := claimed.isSome
  outcomeFor attempt.id attempt.role
    (attempt.unreachable.isSome || columnReason.isSome || turnEndedBeforeTheRuntime ||
      turnEndedUnderIt)
    (receiptOf evidence.receipts attempt) (refusedOperations evidence.record)
    (unreachableDetail turnEndedBeforeTheRuntime turnEndedUnderIt columnReason)

/-- Grade one move against the evidence its turn produced. -/
def judgeCase (move : AttackMove) (evidence : CaseEvidence) (options : JudgeCaseOptions) :
    CaseJudgement :=
  let turn := turnOutcome evidence.record options.expectTurn
  let started := runtimeStarted evidence.record
  -- claiming reads nothing of the grades, so the claims are made first, in the order of the grades
  let attempts := (move.attempts.zip (moveClaims move evidence options)).map fun entry =>
    judgeAttempt evidence options entry.1 entry.2
  let completeness := checkRecordCompleteness evidence.record
  let adversarial := attempts.filter AttemptOutcome.isAdversarial
  let controls := attempts.filter AttemptOutcome.isControl
  let terminalAsked := escalationAsked evidence.record move
  let status :=
    match turn with
    | none => caseStatus move adversarial controls completeness.usable
    | some turn => turnCaseStatus turn adversarial controls started terminalAsked
  { status
    attempts
    reasonCodes := sortedCodes (attempts.filterMap AttemptOutcome.reasonCode ++
      (turn.bind TurnOutcome.reasonCode).toList)
    causes := sortedCodes (attempts.filterMap AttemptOutcome.cause)
    refusedBy := sortByKey enforcementPointText
      ((attempts.filterMap AttemptOutcome.refusedBy ++ turnRefusedBy turn).foldl (setByKey id) [])
    declared := attempts.length
    attempted := (attempts.filter AttemptOutcome.attempted).length
    recordUsable := completeness.usable
    recordGaps := (completeness.gaps.filter CompletenessGap.isRequired).map CompletenessGap.field
    driverIssued := (attempts.filter fun outcome =>
      outcome.attempted && (options.driverIssued.lookup outcome.attemptId).isSome).map
        AttemptOutcome.attemptId
    detail :=
      match turn with
      | none => statusDetail status adversarial controls completeness.usable
      | some turn => some (turnDetail turn started terminalAsked) }

end Platform

end SharedOS.Conformance
