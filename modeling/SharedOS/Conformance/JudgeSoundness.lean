/-
SharedOS.Conformance.JudgeSoundness — a cell that reads as a pass has the evidence for one.

The judge grades arbitrary evidence. An attempt is graded on its receipt alone, whatever was
declared of its reach. A cell passes only on attempts that passed or could not be made, under
controls that passed; a cell about how the turn ended passes only when the turn ended so. What the
envelope cut short is excused call by call: each excuse is a request of its own that the turn left
unanswered.

The excuses are where grading could give something for nothing. A claim takes its call out of the
open ones, so no two attempts claim one call (`claimedCalls_own`), and an open call is one the events
request and do not complete (`Unanswered`). Together they give an injection from excused attempts to
unanswered requests.

The case analysis is that of the grades. Each status has one lemma that reads the tests that led to
it off the definition, and the theorem is assembled from these.
-/
import SharedOS.Conformance.Judge

namespace SharedOS.Conformance

open SharedOS.Foundation SharedOS.Contracts

/-! ## One attempt -/

/-- The observed status is among the expected ones and, unless it is success or no codes are
expected, so is the reason code. -/
def MeetsExpectation (receipt : AttemptReceipt) : Prop :=
  ∃ observed, receipt.observed = some observed ∧ observed ∈ receipt.expect.statuses ∧
    (observed ≠ .succeeded → ∀ codes, receipt.expect.reasonCodes = some codes →
      ∃ code ∈ codes, receipt.reasonCode = some code)

theorem satisfiesExpectation_iff {receipt : AttemptReceipt} :
    satisfiesExpectation receipt = true ↔ MeetsExpectation receipt := by
  unfold satisfiesExpectation MeetsExpectation
  cases receipt.observed with
  | none => simp
  | some observed =>
      by_cases hlisted : observed ∈ receipt.expect.statuses
      · cases receipt.expect.reasonCodes with
        | none => simp [hlisted]
        | some codes =>
            by_cases hsucceeded : observed = .succeeded
            · simp [hsucceeded ▸ hlisted, hsucceeded]
            · cases receipt.reasonCode <;> simp [hlisted, hsucceeded]
      · simp [hlisted]

section Judgement

variable {evidence : CaseEvidence} {options : JudgeCaseOptions} {attempt : AttackAttempt}
  {claimed : Option JsString}

/-- **An attempt that was made is graded on its receipt**, whatever is declared unreachable. -/
theorem judgeAttempt_attempted {receipt : AttemptReceipt}
    (hreceipt : receiptOf evidence.receipts attempt = some receipt)
    (hattempted : receipt.attempted = true) :
    (judgeAttempt evidence options attempt claimed).status = .pass ↔ MeetsExpectation receipt := by
  rw [← satisfiesExpectation_iff]
  unfold judgeAttempt outcomeFor
  rw [hreceipt]
  dsimp only
  rw [if_neg (by simp [hattempted])]
  cases satisfiesExpectation receipt <;> simp

/-- The grades an attempt can get. -/
theorem judgeAttempt_status :
    (judgeAttempt evidence options attempt claimed).status = .pass ∨
      (judgeAttempt evidence options attempt claimed).status = .fail ∨
      (judgeAttempt evidence options attempt claimed).status = .notExercised ∨
      (judgeAttempt evidence options attempt claimed).status = .notApplicable := by
  unfold judgeAttempt outcomeFor
  cases receiptOf evidence.receipts attempt with
  | none =>
      dsimp only
      split <;> simp
  | some receipt =>
      dsimp only
      split
      · dsimp only
        split <;> simp
      · dsimp only
        split <;> simp

/-- An attempt out of reach was declared so, or its turn ended before the runtime, or it claimed a
call. -/
theorem judgeAttempt_notApplicable
    (h : (judgeAttempt evidence options attempt claimed).status = .notApplicable) :
    attempt.unreachable.isSome ∨ (options.unreachable.lookup attempt.id).isSome ∨
      (options.expectTurn.isSome ∧ runtimeStarted evidence.record = false) ∨
      claimed.isSome := by
  have hdeclared : (attempt.unreachable.isSome || (options.unreachable.lookup attempt.id).isSome ||
      ((turnOutcome evidence.record options.expectTurn).isSome &&
        !runtimeStarted evidence.record) || claimed.isSome) = true := by
    unfold judgeAttempt outcomeFor at h
    cases hreceipt : receiptOf evidence.receipts attempt with
    | none =>
        rw [hreceipt] at h
        dsimp only at h
        split at h
        · next hdeclared => exact hdeclared
        · cases h
    | some receipt =>
        rw [hreceipt] at h
        dsimp only at h
        split at h
        · dsimp only at h
          split at h
          · next hdeclared => exact hdeclared
          · cases h
        · dsimp only at h
          split at h <;> cases h
  have hturn : (turnOutcome evidence.record options.expectTurn).isSome =
      options.expectTurn.isSome := by
    unfold turnOutcome
    rw [Option.isSome_map]
  rw [hturn] at hdeclared
  simpa [Bool.or_eq_true, Bool.and_eq_true, or_assoc] using hdeclared

/-- A claim excuses an attempt that was not made. -/
theorem judgeAttempt_claimed {call : JsString}
    (hmade : wasAttempted evidence.receipts attempt = false) :
    (judgeAttempt evidence options attempt (some call)).status = .notApplicable := by
  unfold wasAttempted at hmade
  unfold judgeAttempt outcomeFor
  cases hreceipt : receiptOf evidence.receipts attempt with
  | none => simp
  | some receipt =>
      rw [hreceipt] at hmade
      replace hmade : receipt.attempted = false := hmade
      simp [hmade]

end Judgement

/-! ## The cell -/

section Cell

variable {adversarial controls : List AttemptOutcome}

theorem not_any_hasStatus {status : ConformanceStatus} {outcomes : List AttemptOutcome} :
    ¬ outcomes.any (AttemptOutcome.hasStatus status) = true ↔ ∀ o ∈ outcomes, o.status ≠ status := by
  simp [AttemptOutcome.hasStatus]

theorem not_any_not_pass {outcomes : List AttemptOutcome} :
    ¬ (outcomes.any fun o => !o.hasStatus .pass) = true ↔ ∀ o ∈ outcomes, o.status = .pass := by
  simp [AttemptOutcome.hasStatus]

/-- **A cell passes** only past every rule before it. -/
theorem caseStatus_pass {move : AttackMove} {recordUsable : Bool}
    (h : caseStatus move adversarial controls recordUsable = .pass) :
    (adversarial ≠ [] → ∃ o ∈ adversarial, o.status ≠ .notApplicable) ∧
      (∀ o ∈ controls, o.status = .pass) ∧
      (∀ o ∈ adversarial, o.status ≠ .fail ∧ o.status ≠ .notExercised) ∧
      (move.kind = .recordCompleteness →
        (∀ o ∈ adversarial, o.status ≠ .notApplicable) ∧ recordUsable = true) := by
  unfold caseStatus at h
  split at h
  · cases h
  next hreach =>
  split at h
  · cases h
  next hboundaries =>
  split at h
  · cases h
  next hcontrols =>
  split at h
  · cases h
  next hfail =>
  split at h
  · cases h
  next hexercised =>
  split at h
  · cases h
  next husable =>
  refine ⟨fun hsome => ?_, not_any_not_pass.mp hcontrols, fun o ho =>
    ⟨not_any_hasStatus.mp hfail o ho, not_any_hasStatus.mp hexercised o ho⟩, fun hkind => ⟨?_, ?_⟩⟩
  · by_contra hnone
    push Not at hnone
    refine hreach ⟨List.length_pos_iff.mpr hsome, List.all_eq_true.mpr fun o ho => ?_⟩
    exact decide_eq_true (hnone o ho)
  · exact not_any_hasStatus.mp fun hany => hboundaries ⟨hkind, hany⟩
  · exact Bool.eq_true_of_not_eq_false fun hfalse => husable ⟨hkind, hfalse⟩

/-- **A cell about an ending passes** only on that ending. -/
theorem turnCaseStatus_pass {turn : TurnOutcome} {started terminalAsked : Bool}
    (h : turnCaseStatus turn adversarial controls started terminalAsked = .pass) :
    turn.met = true ∧ (∀ o ∈ adversarial, o.status ≠ .fail) ∧
      (started = true → (∀ o ∈ controls, o.status = .pass) ∧
        ∀ o ∈ adversarial, o.status ≠ .notExercised) := by
  unfold turnCaseStatus at h
  split at h
  · cases h
  next hfail =>
  split at h
  · cases h
  next hcontrols =>
  split at h
  · cases h
  next hexercised =>
  split at h
  · cases h
  split at h
  · next hmet =>
      refine ⟨hmet, not_any_hasStatus.mp hfail, fun hstarted => ?_⟩
      rw [hstarted, Bool.true_and] at hcontrols hexercised
      exact ⟨not_any_not_pass.mp hcontrols, not_any_hasStatus.mp hexercised⟩
  · cases h

end Cell

/-! ## The calls left unanswered -/

/-- The event asks for the call. -/
def RequestsCall (event : RecordedEvent) (id : JsString) : Prop :=
  eventText event "callId" = some id ∧ event.type = "tool.requested"

/-- The event answers the call. -/
def CompletesCall (event : RecordedEvent) (id : JsString) : Prop :=
  eventText event "callId" = some id ∧ event.type = "tool.completed"

/-- A call requested, and not completed since. -/
def Unanswered (events : List RecordedEvent) (id : JsString) : Prop :=
  ∃ before event after, events = before ++ event :: after ∧ RequestsCall event id ∧
    ∀ e ∈ after, ¬ CompletesCall e id

theorem not_unanswered_nil {id : JsString} : ¬ Unanswered [] id := by
  rintro ⟨before, event, after, h, -⟩
  simp at h

/-- **One event more**: it asks for the call, or leaves it as it was. -/
theorem unanswered_snoc {events : List RecordedEvent} {last : RecordedEvent} {id : JsString} :
    Unanswered (events ++ [last]) id ↔
      RequestsCall last id ∨ (Unanswered events id ∧ ¬ CompletesCall last id) := by
  constructor
  · rintro ⟨before, event, after, hsplit, hrequests, hopen⟩
    rcases List.eq_nil_or_concat after with rfl | ⟨after, e, rfl⟩
    · have hlast := List.append_inj_right' hsplit rfl
      rw [List.singleton_inj] at hlast
      exact .inl (hlast ▸ hrequests)
    · rw [List.concat_eq_append, ← List.cons_append, ← List.append_assoc] at hsplit
      obtain ⟨hevents, hlast⟩ := List.append_inj' hsplit rfl
      rw [List.singleton_inj] at hlast
      refine .inr ⟨⟨before, event, after, hevents, hrequests, fun e' he' => ?_⟩, ?_⟩
      · exact hopen e' (by simp [he'])
      · exact hlast ▸ hopen e (by simp)
  · rintro (hrequests | ⟨⟨before, event, after, rfl, hrequests, hopen⟩, hlast⟩)
    · exact ⟨events, last, [], rfl, hrequests, by simp⟩
    · refine ⟨before, event, after ++ [last], by simp, hrequests, fun e he => ?_⟩
      rcases List.mem_append.mp he with he | he
      · exact hopen e he
      · rw [List.mem_singleton.mp he]
        exact hlast

/-- **What one event does to the open calls.** -/
theorem mem_keys_noteCall {calls : OpenCalls} {event : RecordedEvent} {id : JsString} :
    id ∈ (noteCall calls event).map Prod.fst ↔
      RequestsCall event id ∨ (id ∈ calls.map Prod.fst ∧ ¬ CompletesCall event id) := by
  unfold noteCall RequestsCall CompletesCall
  cases eventText event "callId" with
  | none => simp
  | some callId =>
      dsimp only
      split
      · next hrequested =>
          have hother : event.type ≠ JsString.ofString "tool.completed" := by
            rw [hrequested]
            decide
          rw [mem_keys_setByKey]
          constructor
          · rintro (hopen | rfl)
            · exact .inr ⟨hopen, fun h => hother h.2⟩
            · exact .inl ⟨rfl, hrequested⟩
          · rintro (⟨hsame, -⟩ | ⟨hopen, -⟩)
            · exact .inr (Option.some.inj hsame).symm
            · exact .inl hopen
      · next hrequested =>
          split
          · next hcompleted =>
              constructor
              · intro hopen
                obtain ⟨call, hcall, rfl⟩ := List.mem_map.mp hopen
                obtain ⟨hin, hother⟩ := List.mem_filter.mp hcall
                refine .inr ⟨List.mem_map_of_mem hin, fun h => of_decide_eq_true hother ?_⟩
                exact (Option.some.inj h.1).symm
              · rintro (⟨-, h⟩ | ⟨hopen, hsame⟩)
                · exact absurd h hrequested
                · obtain ⟨call, hcall, rfl⟩ := List.mem_map.mp hopen
                  refine List.mem_map_of_mem (List.mem_filter.mpr ⟨hcall, decide_eq_true ?_⟩)
                  exact fun heq => hsame ⟨by rw [heq], hcompleted⟩
          · next hcompleted => simp [hrequested, hcompleted]

/-- **The open calls at the end of a turn** are those left unanswered. -/
theorem mem_openCalls_iff {events : List RecordedEvent} {id : JsString} :
    id ∈ (events.foldl noteCall []).map Prod.fst ↔ Unanswered events id := by
  induction events using List.reverseRecOn with
  | nil => simp [not_unanswered_nil]
  | append_singleton events last ih =>
      rw [List.foldl_append, List.foldl_cons, List.foldl_nil, mem_keys_noteCall, ih,
        unanswered_snoc]

/-- What can be claimed was left unanswered, on a turn that met its expectation and that the
envelope ended. -/
theorem of_mem_callsTheTurnEndedUnder {record : ExecutionRecord} {turn : Option TurnOutcome}
    {id : JsString} (h : id ∈ (callsTheTurnEndedUnder record turn).map Prod.fst) :
    Unanswered record.execution.events id ∧
      ∃ t, turn = some t ∧ t.met = true ∧ t.endedBy = some .envelope := by
  unfold callsTheTurnEndedUnder at h
  cases turn with
  | none => simp at h
  | some t =>
      dsimp only at h
      split at h
      · next hended => exact ⟨mem_openCalls_iff.mp h, t, rfl, hended.1, hended.2⟩
      · simp at h

/-! ## Claiming -/

theorem claimable_mem {calls : OpenCalls} {callId claimed : JsString} {tool : Option JsString}
    (h : claimable calls callId tool = some claimed) : claimed ∈ calls.map Prod.fst := by
  unfold claimable at h
  split at h
  · next hopen =>
      obtain ⟨call, hcall, heq⟩ := List.any_eq_true.mp hopen
      cases h
      exact List.mem_map.mpr ⟨call, hcall, of_decide_eq_true heq⟩
  · obtain ⟨tool, -, h⟩ := Option.bind_eq_some_iff.mp h
    obtain ⟨call, hcall, rfl⟩ := Option.map_eq_some_iff.mp h
    exact List.mem_map_of_mem (List.mem_of_find?_eq_some hcall)

section Claims

variable {mint : AttackAttempt → JsString} {receipts : List AttemptReceipt} {calls : OpenCalls}
  {attempts : List AttackAttempt}

/-- **One attempt**: it leaves the open calls as they are, or takes one of them. -/
theorem claimedCalls_cons (attempt : AttackAttempt) (rest : List AttackAttempt) :
    claimedCalls mint receipts calls (attempt :: rest) =
        none :: claimedCalls mint receipts calls rest ∨
      ∃ claimed, wasAttempted receipts attempt = false ∧
        claimable calls (mint attempt) attempt.tool = some claimed ∧
        claimedCalls mint receipts calls (attempt :: rest) =
          some claimed ::
            claimedCalls mint receipts (calls.filter fun call => call.1 ≠ claimed) rest := by
  by_cases hmade : wasAttempted receipts attempt = true
  · exact .inl (by rw [claimedCalls, if_pos hmade])
  · cases hclaim : claimable calls (mint attempt) attempt.tool with
    | none => exact .inl (by rw [claimedCalls, if_neg hmade, hclaim])
    | some claimed =>
        exact .inr ⟨claimed, Bool.eq_false_iff.mpr hmade, rfl,
          by rw [claimedCalls, if_neg hmade, hclaim]⟩

/-- Every attempt claims a call or none. -/
theorem claimedCalls_length :
    (claimedCalls mint receipts calls attempts).length = attempts.length := by
  induction attempts generalizing calls with
  | nil => rfl
  | cons attempt rest ih =>
      rcases @claimedCalls_cons mint receipts calls attempt rest with
        heq | ⟨claimed, -, -, heq⟩
      · rw [heq, List.length_cons, List.length_cons, ih]
      · rw [heq, List.length_cons, List.length_cons, ih]

/-- **What is claimed was open**, by an attempt that was not made. -/
theorem claimedCalls_open {i : ℕ} {call : JsString}
    (h : (claimedCalls mint receipts calls attempts)[i]? = some (some call)) :
    call ∈ calls.map Prod.fst ∧
      ∃ attempt, attempts[i]? = some attempt ∧ wasAttempted receipts attempt = false := by
  induction attempts generalizing calls i with
  | nil => simp [claimedCalls] at h
  | cons attempt rest ih =>
      rcases @claimedCalls_cons mint receipts calls attempt rest with
        heq | ⟨claimed, hmade, hclaim, heq⟩
      · rw [heq] at h
        cases i with
        | zero => simp at h
        | succ i => exact ih h
      · rw [heq] at h
        cases i with
        | zero =>
            rw [List.getElem?_cons_zero, Option.some.injEq, Option.some.injEq] at h
            exact ⟨h ▸ claimable_mem hclaim, attempt, rfl, hmade⟩
        | succ i =>
            obtain ⟨hopen, hrest⟩ := ih h
            refine ⟨?_, hrest⟩
            obtain ⟨entry, hentry, rfl⟩ := List.mem_map.mp hopen
            exact List.mem_map_of_mem (List.mem_filter.mp hentry).1

/-- **A call is claimed once.** -/
theorem claimedCalls_own {i j : ℕ} {call : JsString}
    (hi : (claimedCalls mint receipts calls attempts)[i]? = some (some call))
    (hj : (claimedCalls mint receipts calls attempts)[j]? = some (some call)) : i = j := by
  induction attempts generalizing calls i j with
  | nil => simp [claimedCalls] at hi
  | cons attempt rest ih =>
      rcases @claimedCalls_cons mint receipts calls attempt rest with
        heq | ⟨claimed, -, -, heq⟩
      · rw [heq] at hi hj
        cases i with
        | zero => simp at hi
        | succ i =>
            cases j with
            | zero => simp at hj
            | succ j => rw [ih hi hj]
      · rw [heq] at hi hj
        -- a call that is claimed is no longer among those the later attempts may claim
        have hgone : ∀ k : ℕ, (claimedCalls mint receipts
            (calls.filter fun entry => entry.1 ≠ claimed) rest)[k]? = some (some call) →
            call ≠ claimed := by
          intro k hk
          obtain ⟨entry, hentry, rfl⟩ := List.mem_map.mp (claimedCalls_open hk).1
          exact of_decide_eq_true (List.mem_filter.mp hentry).2
        cases i with
        | zero =>
            cases j with
            | zero => rfl
            | succ j =>
                rw [List.getElem?_cons_zero, Option.some.injEq, Option.some.injEq] at hi
                exact absurd hi.symm (hgone j hj)
        | succ i =>
            cases j with
            | zero =>
                rw [List.getElem?_cons_zero, Option.some.injEq, Option.some.injEq] at hj
                exact absurd hj.symm (hgone i hi)
            | succ j => rw [ih hi hj]

end Claims

/-! ## The verdicts -/

section Verdict

variable [HostPlatform] [RecordIssues] {move : AttackMove} {evidence : CaseEvidence}
  {options : JudgeCaseOptions}

/-- What a pass says of a row graded on its attempts. -/
structure PassedCase (move : AttackMove) (record : ExecutionRecord)
    (attempts : List AttemptOutcome) : Prop where
  controls : ∀ o ∈ attempts, o.role = .control → o.status = .pass
  graded : ∀ o ∈ attempts, o.role ≠ .control → o.status = .pass ∨ o.status = .notApplicable
  exercised : (∃ o ∈ attempts, o.role ≠ .control) →
    ∃ o ∈ attempts, o.role ≠ .control ∧ o.status = .pass
  complete : move.kind = .recordCompleteness →
    (∀ o ∈ attempts, o.role ≠ .control → o.status ≠ .notApplicable) ∧
      (checkRecordCompleteness record).usable = true

/-- What a pass says of a row graded on how its turn ended. -/
structure PassedTurn (record : ExecutionRecord) (expected : TurnExpectation)
    (attempts : List AttemptOutcome) : Prop where
  ended : record.execution.status = expected.status ∧
    ∀ code, expected.reasonCode = some code → record.execution.terminalReasonCode = some code
  unfailed : ∀ o ∈ attempts, o.role ≠ .control → o.status ≠ .fail
  exercised : (∃ e ∈ record.execution.events, e.type = JsString.ofString "turn.started") →
    (∀ o ∈ attempts, o.role = .control → o.status = .pass) ∧
      ∀ o ∈ attempts, o.role ≠ .control → o.status ≠ .notExercised

/-- What excuses the attempts a turn was ended under: to each of them a call of its own, that the
turn left unanswered. -/
structure Excuses (record : ExecutionRecord) (expectTurn : Option TurnExpectation)
    (claims : List (Option JsString)) : Prop where
  own : ∀ (i j : ℕ) (call : JsString), claims[i]? = some (some call) →
    claims[j]? = some (some call) → i = j
  unanswered : ∀ (i : ℕ) (call : JsString), claims[i]? = some (some call) →
    Unanswered record.execution.events call
  ended : ∀ (i : ℕ) (call : JsString), claims[i]? = some (some call) →
    record.execution.endedBy = some .envelope ∧
      ∃ expected, expectTurn = some expected ∧ record.execution.status = expected.status ∧
        ∀ code, expected.reasonCode = some code → record.execution.terminalReasonCode = some code

omit [HostPlatform] [RecordIssues] in
/-- The ending of a turn, compared. -/
theorem turnOutcome_met {record : ExecutionRecord} {expectTurn : Option TurnExpectation}
    {turn : TurnOutcome} (h : turnOutcome record expectTurn = some turn) (hmet : turn.met = true) :
    turn.endedBy = record.execution.endedBy ∧ ∃ expected, expectTurn = some expected ∧
      record.execution.status = expected.status ∧
      ∀ code, expected.reasonCode = some code →
        record.execution.terminalReasonCode = some code := by
  obtain ⟨expected, hexpected, rfl⟩ := Option.map_eq_some_iff.mp h
  obtain ⟨hstatus, hcode⟩ := of_decide_eq_true hmet
  refine ⟨rfl, expected, hexpected, hstatus, fun code hsome => ?_⟩
  rcases hcode with hnone | heq
  · rw [hnone] at hsome
    cases hsome
  · exact heq.trans hsome

omit [HostPlatform] [RecordIssues] in
theorem runtimeStarted_iff {record : ExecutionRecord} :
    runtimeStarted record = true ↔
      ∃ e ∈ record.execution.events, e.type = JsString.ofString "turn.started" := by
  simp [runtimeStarted]

omit [HostPlatform] [RecordIssues] in
/-- The outcome of the attempt `i`. -/
theorem judged_getElem? {i : ℕ} {attempt : AttackAttempt} {outcome : AttemptOutcome}
    (hattempt : move.attempts[i]? = some attempt)
    (houtcome : ((move.attempts.zip (moveClaims move evidence options)).map fun entry =>
      judgeAttempt evidence options entry.1 entry.2)[i]? = some outcome) :
    ∃ claimed, (moveClaims move evidence options)[i]? = some claimed ∧
      outcome = judgeAttempt evidence options attempt claimed := by
  rw [List.getElem?_map, Option.map_eq_some_iff] at houtcome
  obtain ⟨entry, hentry, rfl⟩ := houtcome
  obtain ⟨hleft, hright⟩ := List.getElem?_zip_eq_some.mp hentry
  rw [hattempt, Option.some.injEq] at hleft
  exact ⟨entry.2, hright, by rw [hleft]⟩

theorem judgeCase_attempts : (judgeCase move evidence options).attempts =
    (move.attempts.zip (moveClaims move evidence options)).map fun entry =>
      judgeAttempt evidence options entry.1 entry.2 := rfl

/-- The grades of a cell's attempts. -/
theorem judgeCase_graded {o : AttemptOutcome} (h : o ∈ (judgeCase move evidence options).attempts) :
    o.status = .pass ∨ o.status = .fail ∨ o.status = .notExercised ∨
      o.status = .notApplicable := by
  rw [judgeCase_attempts] at h
  obtain ⟨entry, -, rfl⟩ := List.mem_map.mp h
  exact judgeAttempt_status

theorem judgeCase_passedCase (hrow : options.expectTurn = none)
    (hpass : (judgeCase move evidence options).status = .pass) :
    PassedCase move evidence.record (judgeCase move evidence options).attempts := by
  have hstatus : (judgeCase move evidence options).status = caseStatus move
      ((judgeCase move evidence options).attempts.filter AttemptOutcome.isAdversarial)
      ((judgeCase move evidence options).attempts.filter AttemptOutcome.isControl)
      (checkRecordCompleteness evidence.record).usable := by
    unfold judgeCase turnOutcome
    rw [hrow]
    rfl
  rw [hstatus] at hpass
  obtain ⟨hreach, hcontrols, hgraded, hcomplete⟩ := caseStatus_pass hpass
  have hadversarial : ∀ o ∈ (judgeCase move evidence options).attempts, o.role ≠ .control →
      o ∈ (judgeCase move evidence options).attempts.filter AttemptOutcome.isAdversarial :=
    fun o ho hrole => List.mem_filter.mpr ⟨ho, decide_eq_true hrole⟩
  have hpassed : ∀ o ∈ (judgeCase move evidence options).attempts, o.role ≠ .control →
      o.status = .pass ∨ o.status = .notApplicable := by
    intro o ho hrole
    have hsome := hgraded o (hadversarial o ho hrole)
    rcases judgeCase_graded ho with h | h | h | h
    · exact .inl h
    · exact absurd h hsome.1
    · exact absurd h hsome.2
    · exact .inr h
  refine ⟨fun o ho hrole => hcontrols o (List.mem_filter.mpr ⟨ho, decide_eq_true hrole⟩),
    hpassed, ?_, fun hkind => ⟨fun o ho hrole => (hcomplete hkind).1 o (hadversarial o ho hrole),
      (hcomplete hkind).2⟩⟩
  rintro ⟨o, ho, hrole⟩
  obtain ⟨o', ho', happlies⟩ := hreach (List.ne_nil_of_mem (hadversarial o ho hrole))
  obtain ⟨hmem, hrole'⟩ := List.mem_filter.mp ho'
  exact ⟨o', hmem, of_decide_eq_true hrole',
    (hpassed o' hmem (of_decide_eq_true hrole')).resolve_right happlies⟩

theorem judgeCase_passedTurn {expected : TurnExpectation} (hrow : options.expectTurn = some expected)
    (hpass : (judgeCase move evidence options).status = .pass) :
    PassedTurn evidence.record expected (judgeCase move evidence options).attempts := by
  obtain ⟨turn, hturn⟩ : ∃ turn, turnOutcome evidence.record options.expectTurn = some turn := by
    rw [hrow]
    exact ⟨_, rfl⟩
  have hstatus : (judgeCase move evidence options).status = turnCaseStatus turn
      ((judgeCase move evidence options).attempts.filter AttemptOutcome.isAdversarial)
      ((judgeCase move evidence options).attempts.filter AttemptOutcome.isControl)
      (runtimeStarted evidence.record) (escalationAsked evidence.record move) := by
    unfold judgeCase
    rw [hturn]
  rw [hstatus] at hpass
  obtain ⟨hmet, hunfailed, hexercised⟩ := turnCaseStatus_pass hpass
  obtain ⟨-, expected', hexpected', hended⟩ := turnOutcome_met hturn hmet
  rw [hrow, Option.some.injEq] at hexpected'
  refine ⟨hexpected' ▸ hended, fun o ho hrole => ?_, fun hstarted => ⟨fun o ho hrole => ?_,
    fun o ho hrole => ?_⟩⟩
  · exact hunfailed o (List.mem_filter.mpr ⟨ho, decide_eq_true hrole⟩)
  · exact (hexercised (runtimeStarted_iff.mpr hstarted)).1 o
      (List.mem_filter.mpr ⟨ho, decide_eq_true hrole⟩)
  · exact (hexercised (runtimeStarted_iff.mpr hstarted)).2 o
      (List.mem_filter.mpr ⟨ho, decide_eq_true hrole⟩)

omit [HostPlatform] [RecordIssues] in
theorem moveClaims_excuses : Excuses evidence.record options.expectTurn
    (moveClaims move evidence options) where
  own _ _ _ hi hj := claimedCalls_own hi hj
  unanswered _ _ hi := (of_mem_callsTheTurnEndedUnder (claimedCalls_open hi).1).1
  ended _ _ hi := by
    obtain ⟨turn, hturn, hmet, hby⟩ := (of_mem_callsTheTurnEndedUnder (claimedCalls_open hi).1).2
    obtain ⟨hsame, hexpected⟩ := turnOutcome_met hturn hmet
    exact ⟨hsame ▸ hby, hexpected⟩

/-- **The judge is sound.** -/
theorem judgeCase_sound (move : AttackMove) (evidence : CaseEvidence)
    (options : JudgeCaseOptions) :
    (judgeCase move evidence options).attempts.length = move.attempts.length ∧
    (∀ (i : ℕ) (attempt : AttackAttempt) (receipt : AttemptReceipt) (outcome : AttemptOutcome),
      move.attempts[i]? = some attempt → receiptOf evidence.receipts attempt = some receipt →
      receipt.attempted = true →
      (judgeCase move evidence options).attempts[i]? = some outcome →
      (outcome.status = .pass ↔ MeetsExpectation receipt)) ∧
    (options.expectTurn = none → (judgeCase move evidence options).status = .pass →
      PassedCase move evidence.record (judgeCase move evidence options).attempts) ∧
    (∀ expected, options.expectTurn = some expected →
      (judgeCase move evidence options).status = .pass →
      PassedTurn evidence.record expected (judgeCase move evidence options).attempts) ∧
    ∃ claims, Excuses evidence.record options.expectTurn claims ∧
      ∀ (i : ℕ) (attempt : AttackAttempt) (outcome : AttemptOutcome),
        move.attempts[i]? = some attempt →
        (judgeCase move evidence options).attempts[i]? = some outcome →
        ((∃ call, claims[i]? = some (some call)) → outcome.status = .notApplicable) ∧
        (outcome.status = .notApplicable → attempt.unreachable = none →
          options.unreachable.lookup attempt.id = none →
          (options.expectTurn = none ∨ runtimeStarted evidence.record = true) →
          ∃ call, claims[i]? = some (some call)) := by
  refine ⟨?_, fun i attempt receipt outcome hattempt hreceipt hmade houtcome => ?_,
    judgeCase_passedCase, fun expected => judgeCase_passedTurn,
    moveClaims move evidence options, moveClaims_excuses,
    fun i attempt outcome hattempt houtcome => ⟨?_, ?_⟩⟩
  · rw [judgeCase_attempts, List.length_map, List.length_zip, moveClaims, claimedCalls_length,
      Nat.min_self]
  · obtain ⟨claimed, -, rfl⟩ := judged_getElem? hattempt houtcome
    exact judgeAttempt_attempted hreceipt hmade
  · rintro ⟨call, hcall⟩
    obtain ⟨claimed, hclaimed, rfl⟩ := judged_getElem? hattempt houtcome
    rw [hcall, Option.some.injEq] at hclaimed
    obtain ⟨attempt', hattempt', hmade⟩ := (claimedCalls_open hcall).2
    rw [hattempt, Option.some.injEq] at hattempt'
    rw [← hclaimed]
    exact judgeAttempt_claimed (hattempt' ▸ hmade)
  · intro hstatus hreachable hcolumn hturn
    obtain ⟨claimed, hclaimed, rfl⟩ := judged_getElem? hattempt houtcome
    -- the four ways to not apply: all but the claim are ruled out
    rcases judgeAttempt_notApplicable hstatus with h | h | h | h
    · rw [hreachable] at h
      cases h
    · rw [hcolumn] at h
      cases h
    · rcases hturn with hnone | hstarted
      · rw [hnone] at h
        cases h.1
      · rw [hstarted] at h
        cases h.2
    · obtain ⟨call, rfl⟩ := Option.isSome_iff_exists.mp h
      exact ⟨call, hclaimed⟩

end Verdict

end SharedOS.Conformance
