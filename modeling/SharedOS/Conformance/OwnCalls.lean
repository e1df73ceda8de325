/-
SharedOS.Conformance.OwnCalls — whose call it was that the turn was ended under.

A turn the envelope ends leaves calls unanswered, and each excuses an attempt. Attempts claim them in
the order the move declares: the call under the attempt's own id where it is open, and else the first
on the attempt's tool. So an attempt can lose its own call to one declared before it, and is then
excused only by another call on its tool. Where every such call names the tool of its attempt, it is a
matter of counting: as many attempts on a tool are excused as calls on it were left unanswered.

The walk is followed by its state before each attempt (`foundBy`): the calls that no earlier attempt
took. An attempt's own call is excused just where it is still there. What an earlier attempt takes is
its own call or a call on its tool, and which calls are left is counted tool by tool
(`countP_callsLeft`).

Under `Named`, every open call that an attempt minted names that attempt's tool, which is what a
driver does. Then the state can be forgotten, and the condition is on the move, the receipts and the
events alone.
-/
import SharedOS.Conformance.JudgeSoundness

namespace SharedOS.Conformance

open SharedOS.Foundation SharedOS.Contracts

/-! ## Claiming, one attempt after the other -/

section Claims

variable {mint : AttackAttempt → JsString} {receipts : List AttemptReceipt} {calls : OpenCalls}
  {attempts : List AttackAttempt} {attempt thief : AttackAttempt}

/-- `open`, once an attempt has been considered. -/
def afterClaim (mint : AttackAttempt → JsString) (receipts : List AttemptReceipt)
    (calls : OpenCalls) (attempt : AttackAttempt) : OpenCalls :=
  if wasAttempted receipts attempt then calls
  else (claimable calls (mint attempt) attempt.tool).elim calls fun claimed =>
    calls.filter fun call => call.1 ≠ claimed

/-- `open`, as the attempts before leave it. -/
def callsLeft (mint : AttackAttempt → JsString) (receipts : List AttemptReceipt)
    (calls : OpenCalls) (before : List AttackAttempt) : OpenCalls :=
  before.foldl (afterClaim mint receipts) calls

/-- An attempt whose own call is not open takes this one, the first open on its tool. -/
structure TakesByTool (mint : AttackAttempt → JsString) (receipts : List AttemptReceipt)
    (calls : OpenCalls) (thief : AttackAttempt) (call : JsString) : Prop where
  unattempted : wasAttempted receipts thief = false
  away : mint thief ∉ calls.map Prod.fst
  first : ∃ tool, thief.tool = some tool ∧
    (calls.find? fun entry => entry.2 = some tool).map Prod.fst = some call

theorem any_key_iff {id : JsString} :
    (calls.any fun call => call.1 = id) = true ↔ id ∈ calls.map Prod.fst := by
  simp

/-- The claim of an attempt whose own call is open. -/
theorem claimable_own {id : JsString} {tool : Option JsString} (h : id ∈ calls.map Prod.fst) :
    claimable calls id tool = some id := if_pos (any_key_iff.mpr h)

/-- The claim of an attempt whose own call is not open. -/
theorem claimable_away {id : JsString} {tool : Option JsString} (h : id ∉ calls.map Prod.fst) :
    claimable calls id tool = tool.bind fun tool =>
      (calls.find? fun call => call.2 = some tool).map Prod.fst :=
  if_neg fun hany => h (any_key_iff.mp hany)

/-- An attempt has a call to claim where its own is open, or one on its tool. -/
theorem claimable_isSome_iff {id : JsString} {tool : Option JsString} :
    (claimable calls id tool).isSome ↔ id ∈ calls.map Prod.fst ∨
      ∃ name, tool = some name ∧ ∃ call ∈ calls, call.2 = some name := by
  by_cases hopen : id ∈ calls.map Prod.fst
  · simp [claimable_own hopen, hopen]
  · rw [claimable_away hopen]
    cases tool with
    | none => simp [hopen]
    | some name =>
        simp only [Option.bind_some, Option.isSome_map, List.find?_isSome, decide_eq_true_eq, hopen,
          false_or, Option.some.injEq, exists_eq_left']

/-- What the attempt `i` claims, from what the attempts before it left. -/
theorem claimedCalls_getElem? {i : ℕ} (h : attempts[i]? = some attempt)
    (hmade : wasAttempted receipts attempt = false) :
    (claimedCalls mint receipts calls attempts)[i]? =
      some (claimable (callsLeft mint receipts calls (attempts.take i)) (mint attempt) attempt.tool) := by
  induction attempts generalizing calls i with
  | nil => simp at h
  | cons first rest ih =>
      cases i with
      | zero =>
          obtain rfl : first = attempt := by simpa using h
          rw [claimedCalls, if_neg (by simp [hmade])]
          show _ = some (claimable calls (mint first) first.tool)
          cases claimable calls (mint first) first.tool <;> rfl
      | succ i =>
          have hrest : rest[i]? = some attempt := by simpa using h
          rw [claimedCalls, List.take_succ_cons]
          show _ = some (claimable (callsLeft mint receipts (afterClaim mint receipts calls first)
            (rest.take i)) (mint attempt) attempt.tool)
          unfold afterClaim
          split
          · exact ih hrest
          · cases claimable calls (mint first) first.tool with
            | none => exact ih hrest
            | some claimed => exact ih hrest

/-- The step lemma: a call is left by an attempt that is not its own unless it is taken by tool. -/
theorem mem_afterClaim_iff {call : JsString} (hne : mint thief ≠ call) :
    call ∈ (afterClaim mint receipts calls thief).map Prod.fst ↔
      call ∈ calls.map Prod.fst ∧ ¬ TakesByTool mint receipts calls thief call := by
  unfold afterClaim
  cases hmade : wasAttempted receipts thief with
  | true =>
      -- an attempt that was made claims nothing
      have hkept : ¬ TakesByTool mint receipts calls thief call := by
        intro htakes
        rw [htakes.unattempted] at hmade
        cases hmade
      simp [hkept]
  | false =>
      have htaken : ∀ claimed, claimable calls (mint thief) thief.tool = some claimed →
          (claimed = call ↔ TakesByTool mint receipts calls thief call) := by
        intro claimed hclaim
        -- an attempt whose own call is open takes that one
        by_cases hopen : mint thief ∈ calls.map Prod.fst
        · rw [claimable_own hopen, Option.some.injEq] at hclaim
          constructor
          · intro heq
            exact absurd (hclaim.trans heq) hne
          · intro htakes
            exact absurd hopen htakes.away
        · rw [claimable_away hopen] at hclaim
          obtain ⟨tool, htool, hfirst⟩ := Option.bind_eq_some_iff.mp hclaim
          constructor
          · rintro rfl
            exact ⟨hmade, hopen, tool, htool, hfirst⟩
          · rintro ⟨-, -, tool', htool', hfirst'⟩
            rw [htool, Option.some.injEq] at htool'
            rw [← htool', hfirst, Option.some.injEq] at hfirst'
            exact hfirst'
      cases hclaim : claimable calls (mint thief) thief.tool with
      | none =>
          have hkept : ¬ TakesByTool mint receipts calls thief call := by
            rintro ⟨-, hopen, tool, htool, hfirst⟩
            rw [claimable_away hopen, htool, Option.bind_some, hfirst] at hclaim
            cases hclaim
          simp [hkept]
      | some claimed =>
          rw [← htaken claimed hclaim]
          simp only [Bool.false_eq_true, if_false, Option.elim_some]
          constructor
          · intro hmem
            obtain ⟨entry, hentry, rfl⟩ := List.mem_map.mp hmem
            obtain ⟨hin, hother⟩ := List.mem_filter.mp hentry
            exact ⟨List.mem_map_of_mem hin, fun heq => of_decide_eq_true hother heq.symm⟩
          · rintro ⟨hmem, hother⟩
            obtain ⟨entry, hentry, rfl⟩ := List.mem_map.mp hmem
            refine List.mem_map_of_mem (List.mem_filter.mpr ⟨hentry, decide_eq_true ?_⟩)
            exact fun heq => hother heq.symm

/-- **Whose call is left**: an attempt finds its own call open unless one before it took it by tool. -/
theorem own_left_iff {i : ℕ} (hmint : (attempts.map mint).Nodup) (h : attempts[i]? = some attempt)
    (hopen : mint attempt ∈ calls.map Prod.fst) :
    mint attempt ∈ (callsLeft mint receipts calls (attempts.take i)).map Prod.fst ↔
      ∀ j thief, j < i → attempts[j]? = some thief →
        ¬ TakesByTool mint receipts (callsLeft mint receipts calls (attempts.take j)) thief
          (mint attempt) := by
  suffices hprefix : ∀ k ≤ i,
      (mint attempt ∈ (callsLeft mint receipts calls (attempts.take k)).map Prod.fst ↔
        ∀ j thief, j < k → attempts[j]? = some thief →
          ¬ TakesByTool mint receipts (callsLeft mint receipts calls (attempts.take j)) thief
            (mint attempt)) from hprefix i (Nat.le_refl i)
  intro k hk
  induction k with
  | zero =>
      constructor
      · intro _ j thief hj
        omega
      · intro _
        exact hopen
  | succ k ih =>
      obtain ⟨hi, -⟩ := List.getElem?_eq_some_iff.mp h
      have hlt : k < attempts.length := by omega
      have hthief : attempts[k]? = some attempts[k] := List.getElem?_eq_getElem hlt
      have hne : mint attempts[k] ≠ mint attempt := by
        intro hsame
        have hindex : (attempts.map mint)[k]? = (attempts.map mint)[i]? := by
          rw [List.getElem?_map, List.getElem?_map, hthief, h, Option.map_some, Option.map_some, hsame]
        have := (List.getElem?_inj (by simpa using hlt) hmint).mp hindex
        omega
      have hstep : callsLeft mint receipts calls (attempts.take (k + 1)) =
          afterClaim mint receipts (callsLeft mint receipts calls (attempts.take k)) attempts[k] := by
        unfold callsLeft
        rw [List.take_add_one, hthief, List.foldl_append]
        rfl
      rw [hstep, mem_afterClaim_iff hne, ih (by omega)]
      constructor
      · rintro ⟨hbefore, hlast⟩ j thief hj hat
        by_cases hjk : j = k
        · subst hjk
          rw [hthief, Option.some.injEq] at hat
          rw [← hat]
          exact hlast
        · exact hbefore j thief (by omega) hat
      · intro hall
        exact ⟨fun j thief hj hat => hall j thief (by omega) hat,
          hall k attempts[k] (by omega) hthief⟩

/-! ## Counting the calls on a tool -/

/-- Of the open calls under names of their own, one goes. -/
theorem countP_filter_key {p : JsString × Option JsString → Bool} {entry : JsString × Option JsString}
    (hnodup : (calls.map Prod.fst).Nodup) (hentry : entry ∈ calls) :
    (calls.filter fun call => call.1 ≠ entry.1).countP p =
      calls.countP p - (if p entry then 1 else 0) := by
  induction calls with
  | nil => cases hentry
  | cons first rest ih =>
      obtain ⟨hfirst, hrest⟩ := List.nodup_cons.mp hnodup
      rcases List.mem_cons.mp hentry with rfl | hmem
      · have hothers : rest.filter (fun call => call.1 ≠ entry.1) = rest := by
          rw [List.filter_eq_self]
          intro call hcall
          refine decide_eq_true fun heq => hfirst ?_
          exact heq ▸ List.mem_map_of_mem hcall
        rw [List.filter_cons, if_neg (by simp), hothers, List.countP_cons]
        omega
      · have hne : first.1 ≠ entry.1 := fun heq => hfirst (heq ▸ List.mem_map_of_mem hmem)
        have hpos : p entry = true → 0 < rest.countP p := fun hp =>
          List.countP_pos_iff.mpr ⟨entry, hmem, hp⟩
        rw [List.filter_cons, if_pos (by simpa using hne), List.countP_cons, List.countP_cons,
          ih hrest hmem]
        by_cases hp : p entry = true
        · have := hpos hp
          simp only [hp, if_true]
          omega
        · simp only [hp, Bool.false_eq_true, if_false]
          omega

/-- Every open call under the id of an attempt was requested on that attempt's tool. -/
def Named (mint : AttackAttempt → JsString) (attempts : List AttackAttempt) (calls : OpenCalls) :
    Prop :=
  ∀ attempt ∈ attempts, ∀ call ∈ calls, call.1 = mint attempt → call.2 = attempt.tool

/-- An attempt that was not made, on the tool. -/
def isUnattemptedOn (receipts : List AttemptReceipt) (tool : JsString) (attempt : AttackAttempt) :
    Bool := !wasAttempted receipts attempt && attempt.tool = some tool

/-- An open call on the tool. -/
def isCallOn (tool : JsString) (call : JsString × Option JsString) : Bool := call.2 = some tool

/-- What is claimed under the names is a call on the tool of the attempt. -/
theorem claimable_on_tool {claimed : JsString}
    (hnamed : ∀ call ∈ calls, call.1 = mint attempt → call.2 = attempt.tool)
    (h : claimable calls (mint attempt) attempt.tool = some claimed) :
    ∃ entry ∈ calls, entry.1 = claimed ∧ entry.2 = attempt.tool := by
  by_cases hopen : mint attempt ∈ calls.map Prod.fst
  · rw [claimable_own hopen, Option.some.injEq] at h
    obtain ⟨entry, hentry, hkey⟩ := List.mem_map.mp hopen
    exact ⟨entry, hentry, hkey.trans h, hnamed entry hentry hkey⟩
  · rw [claimable_away hopen] at h
    obtain ⟨tool, htool, hfirst⟩ := Option.bind_eq_some_iff.mp h
    obtain ⟨entry, hfind, hkey⟩ := Option.map_eq_some_iff.mp hfirst
    refine ⟨entry, List.mem_of_find?_eq_some hfind, hkey, ?_⟩
    rw [htool]
    simpa using List.find?_some hfind

/-- The step lemma: an unattempted attempt takes a call on its own tool, if one is open. -/
theorem countP_afterClaim (hnodup : (calls.map Prod.fst).Nodup)
    (hnamed : ∀ call ∈ calls, call.1 = mint attempt → call.2 = attempt.tool) (tool : JsString) :
    (afterClaim mint receipts calls attempt).countP (isCallOn tool) =
      calls.countP (isCallOn tool) - (if isUnattemptedOn receipts tool attempt then 1 else 0) := by
  unfold afterClaim
  cases hmade : wasAttempted receipts attempt with
  | true => simp [isUnattemptedOn, hmade]
  | false =>
      have hon : isUnattemptedOn receipts tool attempt = decide (attempt.tool = some tool) := by
        simp [isUnattemptedOn, hmade]
      rw [hon]
      simp only [Bool.false_eq_true, if_false]
      cases hclaim : claimable calls (mint attempt) attempt.tool with
      | none =>
          have hnone : ¬ ∃ name, attempt.tool = some name ∧ ∃ call ∈ calls, call.2 = some name := by
            intro hsome
            have hclaims : (claimable calls (mint attempt) attempt.tool).isSome :=
              claimable_isSome_iff.mpr (.inr hsome)
            rw [hclaim] at hclaims
            cases hclaims
          rw [Option.elim_none]
          by_cases htool : attempt.tool = some tool
          · have hzero : calls.countP (isCallOn tool) = 0 := by
              rw [List.countP_eq_zero]
              intro call hcall hcallOn
              exact hnone ⟨tool, htool, call, hcall, of_decide_eq_true hcallOn⟩
            omega
          · simp [htool]
      | some claimed =>
          obtain ⟨entry, hentry, rfl, htool⟩ := claimable_on_tool hnamed hclaim
          have hentryOn : isCallOn tool entry = decide (attempt.tool = some tool) := by
            unfold isCallOn
            rw [htool]
          rw [Option.elim_some, countP_filter_key hnodup hentry, hentryOn]

theorem nodup_afterClaim (hnodup : (calls.map Prod.fst).Nodup) :
    ((afterClaim mint receipts calls attempt).map Prod.fst).Nodup := by
  unfold afterClaim
  split
  · exact hnodup
  · cases claimable calls (mint attempt) attempt.tool with
    | none => exact hnodup
    | some claimed => exact hnodup.sublist (List.filter_sublist.map Prod.fst)

theorem afterClaim_subset : afterClaim mint receipts calls attempt ⊆ calls := by
  unfold afterClaim
  split
  · exact List.Subset.refl _
  · cases claimable calls (mint attempt) attempt.tool with
    | none => exact List.Subset.refl _
    | some claimed => exact List.filter_sublist.subset

theorem callsLeft_subset : callsLeft mint receipts calls attempts ⊆ calls := by
  induction attempts generalizing calls with
  | nil => exact List.Subset.refl _
  | cons first rest ih => exact List.Subset.trans ih afterClaim_subset

/-- **How many calls are left on a tool**: one fewer for each attempt on it that was not made. -/
theorem countP_callsLeft (hnodup : (calls.map Prod.fst).Nodup) (hnamed : Named mint attempts calls)
    (tool : JsString) :
    (callsLeft mint receipts calls attempts).countP (isCallOn tool) =
      calls.countP (isCallOn tool) - attempts.countP (isUnattemptedOn receipts tool) := by
  induction attempts generalizing calls with
  | nil => rfl
  | cons first rest ih =>
      have hfirst : (afterClaim mint receipts calls first).countP (isCallOn tool) = _ :=
        countP_afterClaim hnodup (hnamed first List.mem_cons_self) tool
      have hrest : Named mint rest (afterClaim mint receipts calls first) := by
        intro attempt hattempt call hcall
        exact hnamed attempt (List.mem_cons_of_mem _ hattempt) call (afterClaim_subset hcall)
      have hleft := ih (nodup_afterClaim hnodup) hrest
      show (callsLeft mint receipts (afterClaim mint receipts calls first) rest).countP _ = _
      rw [hleft, hfirst, List.countP_cons]
      omega

end Claims

/-! ## The calls of a record -/

/-- The open calls are under names of their own. -/
theorem nodup_openCalls (events : List RecordedEvent) :
    ((events.foldl noteCall []).map Prod.fst).Nodup := by
  induction events using List.reverseRecOn with
  | nil => exact List.nodup_nil
  | append_singleton events last ih =>
      rw [List.foldl_append, List.foldl_cons, List.foldl_nil]
      unfold noteCall
      split
      · exact ih
      · split
        · rw [keys_setByKey]
          exact nodup_setByKey Function.injective_id ih
        · split
          · exact ih.sublist (List.filter_sublist.map Prod.fst)
          · exact ih

/-- On a turn that ended as its row expects, by the envelope, every call left unanswered is open. -/
theorem mem_callsTheTurnEndedUnder_iff {record : ExecutionRecord} {turn : TurnOutcome}
    (hmet : turn.met = true) (hended : turn.endedBy = some .envelope) {id : JsString} :
    id ∈ (callsTheTurnEndedUnder record (some turn)).map Prod.fst ↔
      Unanswered record.execution.events id := by
  unfold callsTheTurnEndedUnder
  simp only [hmet, hended, and_self, if_true]
  exact mem_openCalls_iff

theorem nodup_callsTheTurnEndedUnder (record : ExecutionRecord) (turn : Option TurnOutcome) :
    ((callsTheTurnEndedUnder record turn).map Prod.fst).Nodup := by
  unfold callsTheTurnEndedUnder
  cases turn with
  | none => exact List.nodup_nil
  | some turn =>
      dsimp only
      split
      · exact nodup_openCalls record.execution.events
      · exact List.nodup_nil

/-! ## The verdict on an attempt -/

section Verdict

variable {move : AttackMove} {evidence : CaseEvidence} {options : JudgeCaseOptions}
  {attempt : AttackAttempt}

/-- The attempt is out of reach whatever call was left unanswered. -/
def OutOfReach (evidence : CaseEvidence) (options : JudgeCaseOptions) (attempt : AttackAttempt) :
    Prop :=
  attempt.unreachable.isSome ∨ (options.unreachable.lookup attempt.id).isSome ∨
    runtimeStarted evidence.record = false

/-- An attempt that was not made does not apply exactly where it was out of reach or has a call. -/
theorem judgeAttempt_unattempted_iff {claimed : Option JsString}
    (hrow : options.expectTurn.isSome) (hmade : wasAttempted evidence.receipts attempt = false) :
    (judgeAttempt evidence options attempt claimed).status = .notApplicable ↔
      OutOfReach evidence options attempt ∨ claimed.isSome := by
  unfold OutOfReach
  constructor
  · intro h
    rcases judgeAttempt_notApplicable h with h | h | h | h
    · exact .inl (.inl h)
    · exact .inl (.inr (.inl h))
    · exact .inl (.inr (.inr h.2))
    · exact .inr h
  · intro h
    have hturn : (turnOutcome evidence.record options.expectTurn).isSome = true := by
      unfold turnOutcome
      rw [Option.isSome_map, hrow]
    have hdeclared : (attempt.unreachable.isSome || (options.unreachable.lookup attempt.id).isSome ||
        ((turnOutcome evidence.record options.expectTurn).isSome &&
          !runtimeStarted evidence.record) || claimed.isSome) = true := by
      rw [hturn]
      simpa [or_assoc] using h
    unfold wasAttempted at hmade
    unfold judgeAttempt outcomeFor
    cases hreceipt : receiptOf evidence.receipts attempt with
    | none =>
        dsimp only
        rw [if_pos hdeclared]
    | some receipt =>
        rw [hreceipt] at hmade
        replace hmade : receipt.attempted = false := hmade
        dsimp only
        rw [if_pos hmade, if_pos hdeclared]

/-- The id the suite mints for the call of an attempt of the move. -/
def mintedId (move : AttackMove) (evidence : CaseEvidence) : AttackAttempt → JsString :=
  attemptCallId evidence.record.execution.executionId move

/-- The calls the turn was ended under. -/
def endedUnder (evidence : CaseEvidence) (options : JudgeCaseOptions) : OpenCalls :=
  callsTheTurnEndedUnder evidence.record (turnOutcome evidence.record options.expectTurn)

/-- `open` as the attempt `i` finds it. -/
def foundBy (move : AttackMove) (evidence : CaseEvidence) (options : JudgeCaseOptions) (i : ℕ) :
    OpenCalls :=
  callsLeft (mintedId move evidence) evidence.receipts (endedUnder evidence options)
    (move.attempts.take i)

/-- The attempt `i` was not made, and its own call was left unanswered. -/
structure OwedExcuse (move : AttackMove) (evidence : CaseEvidence) (i : ℕ)
    (attempt : AttackAttempt) : Prop where
  declared : move.attempts[i]? = some attempt
  unattempted : wasAttempted evidence.receipts attempt = false
  unanswered : Unanswered evidence.record.execution.events (mintedId move evidence attempt)

/-- The turn ended as its row expects, by the envelope. -/
def EndedByEnvelope (evidence : CaseEvidence) (options : JudgeCaseOptions) : Prop :=
  ∃ turn, turnOutcome evidence.record options.expectTurn = some turn ∧ turn.met = true ∧
    turn.endedBy = some .envelope

variable [HostPlatform] [RecordIssues]

/-- The grade of an attempt that is owed an excuse. -/
theorem judged_owed_iff {i : ℕ} {outcome : AttemptOutcome} (hturn : EndedByEnvelope evidence options)
    (howed : OwedExcuse move evidence i attempt)
    (houtcome : (judgeCase move evidence options).attempts[i]? = some outcome) :
    outcome.status = .notApplicable ↔ OutOfReach evidence options attempt ∨
      (claimable (foundBy move evidence options i) (mintedId move evidence attempt)
        attempt.tool).isSome := by
  obtain ⟨turn, hturn, -, -⟩ := hturn
  have hrow : options.expectTurn.isSome := by
    cases hexpect : options.expectTurn with
    | none =>
        rw [hexpect] at hturn
        cases hturn
    | some expected => rfl
  obtain ⟨claimed, hclaimed, rfl⟩ := judged_getElem? howed.declared houtcome
  rw [judgeAttempt_unattempted_iff hrow howed.unattempted]
  unfold moveClaims at hclaimed
  rw [claimedCalls_getElem? howed.declared howed.unattempted, Option.some.injEq] at hclaimed
  rw [← hclaimed]
  rfl

/-- **An attempt whose own call was left unanswered is excused** exactly where it is out of reach
anyway, or no attempt before it took its call by tool, or another call on its tool is left. Where every
such call was requested on the tool of its attempt, it is exactly where fewer unattempted attempts come
before it on its tool than calls on that tool were left unanswered. -/
theorem own_call_excuses_iff (move : AttackMove) (evidence : CaseEvidence)
    (options : JudgeCaseOptions) (hturn : EndedByEnvelope evidence options)
    (hmint : (move.attempts.map (mintedId move evidence)).Nodup) {i : ℕ} {attempt : AttackAttempt}
    {outcome : AttemptOutcome} (howed : OwedExcuse move evidence i attempt)
    (houtcome : (judgeCase move evidence options).attempts[i]? = some outcome) :
    (outcome.status = .notApplicable ↔ OutOfReach evidence options attempt ∨
      (∀ j thief, j < i → move.attempts[j]? = some thief →
        ¬ TakesByTool (mintedId move evidence) evidence.receipts (foundBy move evidence options j)
          thief (mintedId move evidence attempt)) ∨
      ∃ tool, attempt.tool = some tool ∧ ∃ call ∈ foundBy move evidence options i,
        call.2 = some tool) ∧
    (Named (mintedId move evidence) move.attempts (endedUnder evidence options) →
      (outcome.status = .notApplicable ↔ OutOfReach evidence options attempt ∨
        ∀ tool, attempt.tool = some tool →
          (move.attempts.take i).countP (isUnattemptedOn evidence.receipts tool) <
            (endedUnder evidence options).countP (isCallOn tool))) := by
  have hjudged := judged_owed_iff hturn howed houtcome
  have hopen : mintedId move evidence attempt ∈ (endedUnder evidence options).map Prod.fst := by
    obtain ⟨turn, hturn, hmet, hended⟩ := hturn
    unfold endedUnder
    rw [hturn, mem_callsTheTurnEndedUnder_iff hmet hended]
    exact howed.unanswered
  have hown : mintedId move evidence attempt ∈ (foundBy move evidence options i).map Prod.fst ↔ _ :=
    own_left_iff hmint howed.declared hopen
  constructor
  · rw [hjudged, claimable_isSome_iff, hown]
    rfl
  · intro hnamed
    rw [hjudged]
    refine or_congr Iff.rfl ?_
    have hmem : attempt ∈ move.attempts := List.mem_of_getElem? howed.declared
    -- the own call is on the tool of the attempt for as long as it is open
    have hnamedLeft : ∀ j, ∀ call ∈ foundBy move evidence options j,
        call.1 = mintedId move evidence attempt → call.2 = attempt.tool := by
      intro j call hcall
      exact hnamed attempt hmem call (callsLeft_subset hcall)
    rw [claimable_isSome_iff]
    cases htool : attempt.tool with
    | none =>
        -- a call that names no tool is taken by none but its own attempt
        have hleft : mintedId move evidence attempt ∈
            (foundBy move evidence options i).map Prod.fst := by
          rw [hown]
          rintro j thief - - ⟨-, -, tool, -, hfirst⟩
          obtain ⟨entry, hfind, hkey⟩ := Option.map_eq_some_iff.mp hfirst
          have htools := hnamedLeft j entry (List.mem_of_find?_eq_some hfind) hkey
          have hon : entry.2 = some tool := by simpa using List.find?_some hfind
          rw [htools, htool] at hon
          cases hon
        simp [hleft]
    | some tool =>
        have hcount : (foundBy move evidence options i).countP (isCallOn tool) =
            (endedUnder evidence options).countP (isCallOn tool) -
              (move.attempts.take i).countP (isUnattemptedOn evidence.receipts tool) :=
          countP_callsLeft (nodup_callsTheTurnEndedUnder _ _)
            (fun a ha => hnamed a (List.mem_of_mem_take ha)) tool
        have hpos : 0 < (foundBy move evidence options i).countP (isCallOn tool) ↔
            ∃ call ∈ foundBy move evidence options i, call.2 = some tool := by
          rw [List.countP_pos_iff]
          simp [isCallOn]
        constructor
        · intro hclaims other hother
          obtain rfl : tool = other := Option.some.inj hother
          have hsome : ∃ call ∈ foundBy move evidence options i, call.2 = some tool := by
            rcases hclaims with hleft | ⟨name, hname, hsome⟩
            · obtain ⟨entry, hentry, hkey⟩ := List.mem_map.mp hleft
              exact ⟨entry, hentry, (hnamedLeft i entry hentry hkey).trans htool⟩
            · rwa [Option.some.inj hname]
          have := hpos.mpr hsome
          omega
        · intro hfewer
          refine .inr ⟨tool, rfl, hpos.mp ?_⟩
          have := hfewer tool rfl
          omega

end Verdict

namespace Sample

/-- A schema library that reports no issue. -/
scoped instance noIssues : RecordIssues := ⟨fun _ => []⟩

/-- A hash. -/
def hash : JsString := List.replicate 64 0x61

/-- An event of the run. -/
def event (sequence : ℕ) (type : JsString) (data : List (JsString × Json)) : RecordedEvent where
  version := PROTOCOL_VERSION
  eventId := "event"
  executionId := "run"
  traceId := "trace"
  sequence := .finite sequence
  type := type
  data := .obj data
  occurredAt := "2026-03-01T00:00:00Z"

/-- A call of the file tool is requested. -/
def asking (sequence : ℕ) (callId : JsString) : RecordedEvent :=
  event sequence "tool.requested" [("callId", .str callId), ("tool", .str "files.read")]

/-- A turn that its budget ended, while calls were being decided. -/
def budgetRecord (asked : List RecordedEvent) : ExecutionRecord where
  version := "1"
  recordedAt := "2026-03-01T00:00:00Z"
  experiment := {
    experimentId := "experiment", taskId := "task", runId := "run"
    specHash := hash, worldHash := hash, evaluatorHash := hash, seed := none, metadata := none }
  system := {
    protocolVersion := PROTOCOL_VERSION
    sharedOsVersion := "1.0.0-preview"
    runtime := { id := "r", version := "1", protocolVersion := PROTOCOL_VERSION, metadata := none }
    adapterId := "adapter", model := none, modelProvider := none, policyHash := hash
    catalogHash := none, toolCount := none, promptHash := none, toolPolicy := none, metadata := none }
  authority := {
    principal := .agent "lead", actor := .agent "worker", owner := .human "owner"
    namespaceId := "ns", purpose := "work", snapshots := [], stableAuthorityHash := none }
  execution := {
    executionId := "run", traceId := "trace", agent := .agent "worker"
    status := .failed, terminalReasonCode := some "budget_exceeded", endedBy := some .envelope
    output := none, escalation := none, escalationAsked := none, callsAfterEscalation := none
    exposedTools := ["files.read"], requestedTools := ["files.read"], decisions := []
    operations := []
    events := event 0 "turn.started" [] :: asked
    auditRef := none }
  state := { before := none, after := none, diffRef := none }
  cost := {
    startedAt := "2026-03-01T00:00:00Z", completedAt := "2026-03-01T00:00:00Z"
    elapsedMs := .finite 0, infrastructureMs := none, toolCalls := .finite 1
    authorityLoads := .finite 0, auditEvents := .finite 0, inputTokens := none
    outputTokens := none, metadata := none }

/-- An attempt on the file tool. -/
def attempt (id : JsString) : AttackAttempt where
  id := id
  role := .attack
  tool := some "files.read"
  unreachable := none

/-- Two attempts on one tool. -/
def budgetMove : AttackMove where
  id := "budget"
  kind := .budgetExceeded
  attempts := [attempt "first", attempt "second"]
  terminal := none

/-- Neither attempt has a receipt, and these calls were left unanswered. -/
def budgetEvidence (asked : List RecordedEvent) : CaseEvidence where
  receipts := []
  record := budgetRecord asked

/-- A row that expects the turn to end on its budget. -/
def budgetRow : JudgeCaseOptions where
  expectTurn := some { status := .failed, reasonCode := some "budget_exceeded" }
  unreachable := []
  driverIssued := []

theorem budgetRow_ended (asked : List RecordedEvent) :
    EndedByEnvelope (budgetEvidence asked) budgetRow :=
  ⟨_, rfl, rfl, rfl⟩

theorem budgetMove_nodup (asked : List RecordedEvent) :
    (budgetMove.attempts.map (mintedId budgetMove (budgetEvidence asked))).Nodup := by
  show [JsString.ofString "run.budget.first", JsString.ofString "run.budget.second"].Nodup
  decide

/-- The call that was asked for last is left unanswered. -/
theorem budget_owed (before : List RecordedEvent) (sequence : ℕ) {callId : JsString} {i : ℕ}
    {attempt : AttackAttempt} (hattempt : budgetMove.attempts[i]? = some attempt)
    (hid : callId = mintedId budgetMove (budgetEvidence []) attempt) :
    OwedExcuse budgetMove (budgetEvidence (before ++ [asking sequence callId])) i attempt := by
  refine ⟨hattempt, rfl, _ :: before, asking sequence callId, [], rfl, ⟨?_, rfl⟩, nofun⟩
  show eventText (asking sequence callId) "callId" =
    some (mintedId budgetMove (budgetEvidence []) attempt)
  rw [← hid]
  rfl

end Sample

open scoped SharedOS.Foundation.Reference in
example : (executionRecordSchema (Sample.budgetRecord
    [Sample.asking 1 "run.budget.second"])).isSome := by
  decide +kernel

open scoped SharedOS.Foundation.Reference in
/-- The second attempt's own call was left unanswered, and excuses the first, which was never made. -/
theorem own_call_excuses_another :
    ¬ ∀ [RecordIssues] (move : AttackMove) (evidence : CaseEvidence) (options : JudgeCaseOptions),
      EndedByEnvelope evidence options →
      (move.attempts.map (mintedId move evidence)).Nodup →
      ∀ (i : ℕ) (attempt : AttackAttempt) (outcome : AttemptOutcome),
        OwedExcuse move evidence i attempt →
        (judgeCase move evidence options).attempts[i]? = some outcome →
        outcome.status = .notApplicable := by
  intro h
  let _ : RecordIssues := Sample.noIssues
  have howed : OwedExcuse Sample.budgetMove
      (Sample.budgetEvidence [Sample.asking 1 "run.budget.second"]) 1 (Sample.attempt "second") :=
    Sample.budget_owed [] 1 rfl rfl
  have hturn := Sample.budgetRow_ended [Sample.asking 1 "run.budget.second"]
  obtain ⟨outcome, houtcome⟩ : ∃ outcome, (judgeCase Sample.budgetMove
      (Sample.budgetEvidence [Sample.asking 1 "run.budget.second"]) Sample.budgetRow).attempts[1]? =
        some outcome := ⟨_, rfl⟩
  have hstatus := h Sample.budgetMove _ Sample.budgetRow hturn (Sample.budgetMove_nodup _) 1 _ outcome
    howed houtcome
  rw [judged_owed_iff hturn howed houtcome] at hstatus
  rcases hstatus with (h | h | h) | h
  · cases h
  · cases h
  · cases h
  · exact absurd h (by decide)

open scoped SharedOS.Foundation.Reference in
open Sample in
/-- Both calls were left unanswered, and the first attempt takes its own. So the second finds its own
call; and counted, one attempt comes before it on a tool that two calls were left on. -/
theorem own_call_excuses_second :
    ∃ outcome, (judgeCase budgetMove
        (budgetEvidence [asking 1 "run.budget.first", asking 2 "run.budget.second"])
        budgetRow).attempts[1]? = some outcome ∧ outcome.status = .notApplicable ∧
      Named (mintedId budgetMove (budgetEvidence [])) budgetMove.attempts
        (endedUnder (budgetEvidence [asking 1 "run.budget.first", asking 2 "run.budget.second"])
          budgetRow) := by
  have howed : OwedExcuse budgetMove
      (budgetEvidence [asking 1 "run.budget.first", asking 2 "run.budget.second"]) 1
      (attempt "second") := budget_owed [asking 1 "run.budget.first"] 2 rfl rfl
  obtain ⟨outcome, houtcome⟩ : ∃ outcome, (judgeCase budgetMove
      (budgetEvidence [asking 1 "run.budget.first", asking 2 "run.budget.second"])
      budgetRow).attempts[1]? = some outcome := ⟨_, rfl⟩
  have hnamed : Named (mintedId budgetMove (budgetEvidence [])) budgetMove.attempts
      (endedUnder (budgetEvidence [asking 1 "run.budget.first", asking 2 "run.budget.second"])
        budgetRow) := by
    intro attempt hattempt call hcall _
    rcases List.mem_pair.mp hattempt with rfl | rfl <;>
      rcases List.mem_pair.mp hcall with rfl | rfl <;> rfl
  refine ⟨outcome, houtcome, ?_, hnamed⟩
  have hexcused := (own_call_excuses_iff budgetMove _ budgetRow (budgetRow_ended _)
    (budgetMove_nodup _) howed houtcome).2 hnamed
  rw [hexcused]
  refine .inr ?_
  rintro tool htool
  cases htool
  decide

end SharedOS.Conformance
