/-
SharedOS.Adapters.EscalationLatch — the end of a turn whose harness keeps its own loop.

The calls of a harness reach the host through the latch. A call that names the escalate affordance, on
a turn that holds it, is taken for the turn's ending: it is answered here, and so is every call after
it. What the host was asked before is still in flight, and is answered when the host answers. How the
calls and the host's answers come is not fixed: a run is any order of them.
-/
import SharedOS.Adapters.ModelDriver
import SharedOS.Kernel.Recording

namespace SharedOS.Adapters

open SharedOS.Foundation SharedOS.Contracts SharedOS.Mcp SharedOS.Runtime SharedOS.Kernel

/-! ## The latch -/

/-- `ESCALATION_ASKED_ANNOTATION` -/
def escalationAskedKey : JsString := "escalationAsked"

/-- What the annotation says of the ask. -/
def escalationAskedAnnotation (reason : JsString) : Json :=
  .obj [("tool", .str escalationToolName), ("reason", .str reason)]

/-- A call of the harness, and its answer once it has one. The host's may be a throw. -/
structure LatchCall where
  call : ToolCall
  answer : Option (Except Unit ToolResult)

/-- What a turn has come to, as the latch sees it. -/
structure EscalationLatch where
  reason : Option JsString
  afterwards : ℕ
  /-- The calls, in the order they arrived. -/
  calls : List LatchCall
  /-- What the host was called with. -/
  forwarded : List ToolCall
  /-- What was stated to the envelope. -/
  annotated : List (JsString × Json)

namespace EscalationLatch

/-- Before any call. -/
def create : EscalationLatch where
  reason := none
  afterwards := 0
  calls := []
  forwarded := []
  annotated := []

/-- `#accept`. -/
def accept (call : ToolCall) (reason now : JsString) : ToolResult where
  callId := call.id
  tool := call.tool
  completedAt := now
  outcome := .succeeded (.obj [("escalated", .bool true), ("reason", .str reason),
    ("note", .str (JsString.ofString ("This turn is over: make no further tool calls. " ++
      "The request will be recorded for a human reviewer when the turn ends.")))])
  metadata := none

/-- `#refuse`. -/
def refuse (call : ToolCall) (now : JsString) : ToolResult where
  callId := call.id
  tool := call.tool
  completedAt := now
  outcome := .denied
    { code := "escalation_pending"
      message := "This turn ended by asking a human to decide; nothing further runs on it."
      retryable := some false
      details := none }
  metadata := none

/-- `invokeTool`, as far as its first await, at an instant of the clock. -/
def invokeTool (offered : Bool) (s : EscalationLatch) (call : ToolCall) (now : JsString) :
    EscalationLatch :=
  if s.reason.isSome then
    { s with
      afterwards := s.afterwards + 1
      calls := s.calls ++ [{ call, answer := some (.ok (refuse call now)) }] }
  else
    match askedToEscalate offered call.tool (some call.arguments) with
    | none =>
      { s with
        forwarded := s.forwarded ++ [call]
        calls := s.calls ++ [{ call, answer := none }] }
    | some reason =>
      { s with
        reason := some reason
        annotated := s.annotated ++ [(escalationAskedKey, escalationAskedAnnotation reason)]
        calls := s.calls ++ [{ call, answer := some (.ok (accept call reason now)) }] }

/-- The host answers a call it was forwarded. -/
def hostAnswers (s : EscalationLatch) (index : ℕ) (answer : Except Unit ToolResult) :
    Option EscalationLatch :=
  match s.calls[index]? with
  | some { call, answer := none } =>
    some { s with calls := s.calls.set index { call, answer := some answer } }
  | _ => none

/-- `outcome.type`. -/
def outcomeType : RuntimeTurnOutcome → JsString
  | .complete _ => "complete"
  | .fail _ => "fail"
  | .escalate _ => "escalate"

/-- The code of a failure. -/
def outcomeErrorCode : RuntimeTurnOutcome → Option JsString
  | .fail error => some error.code
  | .complete _ | .escalate _ => none

/-- `settle`: how the turn ends, and the metadata of its ending. -/
def settle (s : EscalationLatch) (outcome : RuntimeTurnOutcome) (metadata : List (JsString × Json)) :
    RuntimeTurnOutcome × List (JsString × Json) :=
  match s.reason with
  | none => (outcome, metadata)
  | some reason =>
    (.escalate reason, spreadEntries metadata
      (([("harnessOutcome", .str (outcomeType outcome))] : List (JsString × Json)) ++
        optionalEntry "harnessErrorCode" ((outcomeErrorCode outcome).map Json.str) ++
        ([("callsAfterEscalation", countJson s.afterwards)] : List (JsString × Json))))

end EscalationLatch

/-- What may happen next: a call arrives, or the host answers one. -/
inductive LatchLabel where
  | arrives (call : ToolCall) (now : JsString)
  | hostAnswers (index : ℕ) (answer : Except Unit ToolResult)

/-- One step of the latch. -/
def latchStep (offered : Bool) (s : EscalationLatch) : LatchLabel → Option EscalationLatch
  | .arrives call now => some (s.invokeTool offered call now)
  | .hostAnswers index answer => s.hostAnswers index answer

/-! ## The reason -/

/-- What a reason is of a text: its first 512 units without the space around it, or one fewer where
these would end within a surrogate pair. -/
structure CutFrom (reason text : JsString) : Prop where
  isPrefix : reason <+: trim text
  whole : (trim text).length ≤ 512 → reason = trim text
  uncut : ∀ rest, trim text = reason ++ rest →
    ¬ (reason.getLast?.any isHighSurrogate ∧ rest.head?.any isLowSurrogate)

/-- The bounds of a reason. -/
structure ReasonFits (reason : JsString) : Prop where
  /-- It begins with no space, so it is not blank. -/
  begins : (reason.head?.any fun u => !isTrimmed u) = true
  length : reason.length ≤ 512

theorem reasonFits_of_begins {reason text : JsString} (hbegins : reason <+: trim text)
    (hne : reason ≠ []) (hlength : reason.length ≤ 512) : ReasonFits reason := by
  obtain ⟨u, rest, rfl⟩ := List.exists_cons_of_ne_nil hne
  obtain ⟨more, hmore⟩ := hbegins
  refine ⟨?_, hlength⟩
  have hu : isTrimmed u = false := isTrimmed_of_trim_eq hmore.symm
  simp [hu]

/-- A text that is not blank is a reason, cut where it has to be. -/
theorem boundedReason_of_ne_nil {text : JsString} (h : trim text ≠ []) :
    ∃ reason, boundedReason text = some reason ∧ CutFrom reason text ∧ reason ≠ [] ∧
      reason.length ≤ 512 := by
  unfold boundedReason
  rw [if_neg h]
  by_cases hshort : (trim text).length ≤ 512
  · refine ⟨trim text, if_pos hshort, ⟨List.prefix_refl _, fun _ => rfl, ?_⟩, h, hshort⟩
    intro rest hrest
    have hnil : rest = [] := List.append_right_eq_self.mp hrest.symm
    simp [hnil]
  · have hlength : ((trim text).take 512).length = 512 := by
      rw [List.length_take]
      omega
    have hbegins : (trim text).take 512 <+: trim text := List.take_prefix 512 _
    obtain ⟨init, last, hcut⟩ := List.eq_nil_or_concat ((trim text).take 512) |>.resolve_left (by
      intro hnil
      rw [hnil] at hlength
      cases hlength)
    rw [List.concat_eq_append] at hcut
    have hinit : init.length = 511 := by
      rw [hcut, List.length_append, List.length_singleton] at hlength
      omega
    rw [if_neg hshort, hcut]
    dsimp only
    cases hhigh : isHighSurrogate last with
    | false =>
        -- the cut ends with a whole character
        have hlast : ((init ++ [last]).getLast?.any fun last => 0xD800 ≤ last && last ≤ 0xDBFF) =
            false := by simpa [isHighSurrogate] using hhigh
        refine ⟨init ++ [last], by rw [hlast]; rfl, ⟨hcut ▸ hbegins, fun hle => absurd hle hshort, ?_⟩,
          by simp, by simp [hinit]⟩
        intro rest _
        simp [hhigh]
    | true =>
        -- the last unit opens a pair, so it is left out
        have hlast : ((init ++ [last]).getLast?.any fun last => 0xD800 ≤ last && last ≤ 0xDBFF) =
            true := by simpa [isHighSurrogate] using hhigh
        have hinitPrefix : init <+: trim text :=
          (List.prefix_append init [last]).trans (hcut ▸ hbegins)
        refine ⟨init, by rw [hlast]; simp, ⟨hinitPrefix, fun hle => absurd hle hshort, ?_⟩, ?_, by omega⟩
        · rintro rest hrest ⟨-, hlow⟩
          obtain ⟨more, hmore⟩ := hbegins
          rw [hcut, List.append_assoc] at hmore
          have hsame : rest = last :: more := by
            have := hmore.trans hrest
            exact (List.append_cancel_left this).symm
          rw [hsame] at hlow
          simp only [List.head?_cons, Option.any_some, isLowSurrogate, isHighSurrogate,
            Bool.and_eq_true, decide_eq_true_eq] at hlow hhigh
          exact absurd (hlow.1.trans hhigh.2) (by decide)
        · rintro rfl
          cases hinit

/-- The text a call states as its reason, if it is one. -/
def statedReason (arguments : Json) : Option JsString :=
  (jsonObjectSchema arguments).bind fun object => (field "reason" object).bind stringSchema

/-- Exactly a call of the affordance, on a turn that holds it, asks. -/
theorem askedToEscalate_isSome_iff {offered : Bool} {tool : JsString} {arguments : Option Json} :
    (askedToEscalate offered tool arguments).isSome ↔ offered = true ∧ tool = escalationToolName := by
  unfold askedToEscalate escalationRequest
  cases offered with
  | false => simp
  | true =>
      by_cases htool : tool = escalationToolName
      · simp [htool]
      · simp [htool]

/-- **What an ask is recorded under**: the reason the call states, cut where it has to be, and for a
call that states none a sentence that says so. -/
theorem askedToEscalate_reason {offered : Bool} {tool reason : JsString} {arguments : Json}
    (h : askedToEscalate offered tool (some arguments) = some reason) :
    ReasonFits reason ∧
      ∀ text, statedReason arguments = some text → trim text ≠ [] → CutFrom reason text := by
  have hread : reason = ((statedReason arguments).bind boundedReason).getD
      "the turn asked for a human decision without saying what needs deciding" := by
    unfold askedToEscalate escalationRequest at h
    split at h
    · split at h
      · cases h
      · simp only [Option.bind_some, Option.some.injEq] at h
        rw [← h]
        unfold statedReason
        rw [Option.bind_assoc]
    · cases h
  have hfallback : ReasonFits
      "the turn asked for a human decision without saying what needs deciding" :=
    ⟨by decide, by decide⟩
  cases hstated : statedReason arguments with
  | none =>
      rw [hstated] at hread
      subst hread
      exact ⟨hfallback, nofun⟩
  | some text =>
      rw [hstated] at hread
      by_cases hblank : trim text = []
      · have hnone : boundedReason text = none := by
          unfold boundedReason
          exact if_pos hblank
        rw [Option.bind_some, hnone] at hread
        subst hread
        refine ⟨hfallback, fun other hother hne => ?_⟩
        cases hother
        exact absurd hblank hne
      · obtain ⟨kept, hkept, hcut, hne, hlength⟩ := boundedReason_of_ne_nil hblank
        rw [Option.bind_some, hkept] at hread
        obtain rfl : reason = kept := hread
        refine ⟨reasonFits_of_begins hcut.isPrefix hne hlength, fun other hother _ => ?_⟩
        cases hother
        exact hcut

/-- The envelope takes a reason within the bounds. -/
theorem reason_accepted {reason : JsString} (h : ReasonFits reason) :
    (runtimeTurnOutcomeSchema (.escalate reason)).isSome := by
  obtain ⟨hbegins, hlength⟩ := h
  obtain ⟨u, rest, rfl⟩ := List.exists_cons_of_ne_nil (show reason ≠ [] by
    rintro rfl
    cases hbegins)
  have hu : isTrimmed u = false := by simpa using hbegins
  have hne : trim (u :: rest) ≠ [] := trim_cons_ne_nil hu
  have hpos : 1 ≤ (trim (u :: rest)).length := List.length_pos_iff.mpr hne
  have hle := (length_trim_le (u :: rest)).trans hlength
  simp [runtimeTurnOutcomeSchema, trimmedString, hpos, hle]

/-! ## What is read off a run -/

/-- The calls that arrived, each with the instant of the clock. -/
def arrivals (labels : List LatchLabel) : List (ToolCall × JsString) :=
  labels.filterMap fun label =>
    match label with
    | .arrives call now => some (call, now)
    | .hostAnswers .. => none

/-- What the host answered to the call with this index. -/
def hostAnswer (index : ℕ) (labels : List LatchLabel) : Option (Except Unit ToolResult) :=
  labels.findSome? fun label =>
    match label with
    | .arrives .. => none
    | .hostAnswers i answer => if i = index then some answer else none

/-- A call of the affordance, on a turn that holds it. -/
def asks (offered : Bool) (call : ToolCall) : Bool := offered && call.tool = escalationToolName

/-- The calls before the first that asks. -/
def beforeAsk (offered : Bool) (labels : List LatchLabel) : List (ToolCall × JsString) :=
  (arrivals labels).takeWhile fun arrival => !asks offered arrival.1

/-- The first call that asks, and all after it. -/
def fromAsk (offered : Bool) (labels : List LatchLabel) : List (ToolCall × JsString) :=
  (arrivals labels).dropWhile fun arrival => !asks offered arrival.1

/-- What a call is to be answered: the host's answer where it comes before the ask, the ask's own
answer, and a refusal after it. -/
def expectedAnswer (offered : Bool) (labels : List LatchLabel) (index : ℕ) (call : ToolCall)
    (now : JsString) : Option (Except Unit ToolResult) :=
  if index < (beforeAsk offered labels).length then hostAnswer index labels
  else if index = (beforeAsk offered labels).length then
    (askedToEscalate offered call.tool (some call.arguments)).map fun reason =>
      .ok (EscalationLatch.accept call reason now)
  else some (.ok (EscalationLatch.refuse call now))

/-- Where a run has come to. -/
structure Latched (offered : Bool) (labels : List LatchLabel) (s : EscalationLatch) : Prop where
  forwarded : s.forwarded = (beforeAsk offered labels).map Prod.fst
  reason : s.reason = (fromAsk offered labels).head?.bind fun ask =>
    askedToEscalate offered ask.1.tool (some ask.1.arguments)
  annotated : s.annotated = s.reason.toList.map fun reason =>
    (escalationAskedKey, escalationAskedAnnotation reason)
  afterwards : s.afterwards = (fromAsk offered labels).tail.length
  length : s.calls.length = (arrivals labels).length
  answers : ∀ index call now, (arrivals labels)[index]? = some (call, now) →
    s.calls[index]? = some (LatchCall.mk call (expectedAnswer offered labels index call now))
  /-- The host has answered nothing that has not arrived. -/
  later : ∀ index, s.calls.length ≤ index → hostAnswer index labels = none

theorem arrivals_arrives (labels : List LatchLabel) (call : ToolCall) (now : JsString) :
    arrivals (labels ++ [.arrives call now]) = arrivals labels ++ [(call, now)] :=
  List.filterMap_append

theorem arrivals_hostAnswers (labels : List LatchLabel) (index : ℕ) (answer : Except Unit ToolResult) :
    arrivals (labels ++ [.hostAnswers index answer]) = arrivals labels := by
  simp [arrivals]

theorem hostAnswer_arrives (labels : List LatchLabel) (index : ℕ) (call : ToolCall) (now : JsString) :
    hostAnswer index (labels ++ [.arrives call now]) = hostAnswer index labels := by
  simp [hostAnswer, List.findSome?_append]

theorem hostAnswer_hostAnswers (labels : List LatchLabel) (index i : ℕ)
    (answer : Except Unit ToolResult) : hostAnswer index (labels ++ [.hostAnswers i answer]) =
      (hostAnswer index labels).or (if i = index then some answer else none) := by
  simp [hostAnswer, List.findSome?_append]

variable {offered : Bool} {labels : List LatchLabel} {s : EscalationLatch}

theorem asks_iff {call : ToolCall} : asks offered call = true ↔
    (askedToEscalate offered call.tool (some call.arguments)).isSome := by
  rw [askedToEscalate_isSome_iff]
  simp [asks]

/-- The first call from the ask on asks. -/
theorem fromAsk_head {ask : ToolCall × JsString} {rest : List (ToolCall × JsString)}
    (h : fromAsk offered labels = ask :: rest) : asks offered ask.1 = true := by
  have hhead := List.head?_dropWhile_not (fun arrival : ToolCall × JsString => !asks offered arrival.1)
    (arrivals labels)
  unfold fromAsk at h
  rw [h] at hhead
  simpa using hhead

theorem beforeAsk_append_fromAsk (offered : Bool) (labels : List LatchLabel) :
    beforeAsk offered labels ++ fromAsk offered labels = arrivals labels :=
  List.takeWhile_append_dropWhile

/-- The latch holds a reason exactly once a call has asked. -/
theorem Latched.reason_isSome_iff (h : Latched offered labels s) :
    s.reason.isSome ↔ fromAsk offered labels ≠ [] := by
  rw [h.reason]
  cases hfrom : fromAsk offered labels with
  | nil => simp
  | cons ask rest =>
      have hask := asks_iff.mp (fromAsk_head hfrom)
      simpa using hask

/-! ## Steps -/

theorem latched_create : Latched offered [] .create := by
  refine ⟨rfl, rfl, rfl, rfl, rfl, nofun, fun _ _ => rfl⟩

/-- A call that arrives before any has asked. -/
theorem split_open (hopen : fromAsk offered labels = []) (call : ToolCall) (now : JsString) :
    beforeAsk offered (labels ++ [.arrives call now]) =
        arrivals labels ++ (if asks offered call then [] else [(call, now)]) ∧
      fromAsk offered (labels ++ [.arrives call now]) =
        if asks offered call then [(call, now)] else [] := by
  have hall : ∀ arrival ∈ arrivals labels, (!asks offered arrival.1) = true :=
    List.dropWhile_eq_nil_iff.mp hopen
  unfold beforeAsk fromAsk
  rw [arrivals_arrives, List.takeWhile_append_of_pos hall, List.dropWhile_append_of_pos hall]
  cases hask : asks offered call <;> simp [hask]

/-- A call that arrives after one has asked. -/
theorem split_over (hover : fromAsk offered labels ≠ []) (call : ToolCall) (now : JsString) :
    beforeAsk offered (labels ++ [.arrives call now]) = beforeAsk offered labels ∧
      fromAsk offered (labels ++ [.arrives call now]) =
        fromAsk offered labels ++ [(call, now)] := by
  have hsplit := beforeAsk_append_fromAsk offered labels
  obtain ⟨ask, rest, hfrom⟩ := List.exists_cons_of_ne_nil hover
  have hask : (!asks offered ask.1) = false := by rw [fromAsk_head hfrom]; rfl
  have hbefore : ∀ arrival ∈ beforeAsk offered labels, (!asks offered arrival.1) = true := by
    intro arrival harrival
    exact List.mem_takeWhile_imp (p := fun arrival : ToolCall × JsString => !asks offered arrival.1)
      harrival
  rw [hfrom] at hsplit ⊢
  constructor
  · show (arrivals (labels ++ [.arrives call now])).takeWhile _ = _
    rw [arrivals_arrives, ← hsplit, List.append_assoc, List.takeWhile_append_of_pos hbefore,
      List.cons_append, List.takeWhile_cons_of_neg (by rw [hask]; exact nofun), List.append_nil]
  · show (arrivals (labels ++ [.arrives call now])).dropWhile _ = _
    rw [arrivals_arrives, ← hsplit, List.append_assoc, List.dropWhile_append_of_pos hbefore,
      List.cons_append, List.dropWhile_cons_of_neg (by rw [hask]; exact nofun)]

theorem beforeAsk_of_open (hopen : fromAsk offered labels = []) :
    beforeAsk offered labels = arrivals labels := by
  have hsplit := beforeAsk_append_fromAsk offered labels
  rwa [hopen, List.append_nil] at hsplit

/-- What the calls so far are to be answered does not change with the next arrival. -/
theorem expectedAnswer_arrives (call : ToolCall) (now : JsString) {index : ℕ}
    (hindex : index < (arrivals labels).length) (old : ToolCall) (instant : JsString) :
    expectedAnswer offered (labels ++ [.arrives call now]) index old instant =
      expectedAnswer offered labels index old instant := by
  unfold expectedAnswer
  rw [hostAnswer_arrives]
  by_cases hopen : fromAsk offered labels = []
  · have hlt : index < (beforeAsk offered (labels ++ [.arrives call now])).length := by
      rw [(split_open hopen call now).1, List.length_append]
      omega
    rw [if_pos hlt, beforeAsk_of_open hopen, if_pos hindex]
  · rw [(split_over hopen call now).1]

/-- The next call joins the others, with the answer it is to have. -/
theorem Latched.answers_snoc (h : Latched offered labels s) {s' : EscalationLatch}
    {call : ToolCall} {now : JsString}
    (hcalls : s'.calls = s.calls ++ [LatchCall.mk call
      (expectedAnswer offered (labels ++ [.arrives call now]) (arrivals labels).length call now)]) :
    s'.calls.length = (arrivals (labels ++ [.arrives call now])).length ∧
    (∀ index old instant, (arrivals (labels ++ [.arrives call now]))[index]? = some (old, instant) →
      s'.calls[index]? = some (LatchCall.mk old
        (expectedAnswer offered (labels ++ [.arrives call now]) index old instant))) ∧
    ∀ index, s'.calls.length ≤ index → hostAnswer index (labels ++ [.arrives call now]) = none := by
  refine ⟨?_, ?_, ?_⟩
  · rw [hcalls, arrivals_arrives, List.length_append, List.length_append, h.length]
    rfl
  · intro index old instant hold
    rw [arrivals_arrives] at hold
    rw [hcalls]
    by_cases hindex : index < (arrivals labels).length
    · rw [List.getElem?_append_left hindex] at hold
      rw [List.getElem?_append_left (h.length ▸ hindex), h.answers index old instant hold,
        expectedAnswer_arrives call now hindex]
    · have heq : index = (arrivals labels).length := by
        have hlt := (List.getElem?_eq_some_iff.mp hold).1
        rw [List.length_append, List.length_singleton] at hlt
        omega
      subst heq
      rw [List.getElem?_append_right (Nat.le_refl _), Nat.sub_self] at hold
      cases hold
      rw [← h.length, List.getElem?_append_right (Nat.le_refl _), Nat.sub_self, h.length]
      rfl
  · intro index hindex
    rw [hostAnswer_arrives]
    refine h.later index ?_
    rw [hcalls, List.length_append] at hindex
    omega

/-- The step lemma of an arrival. -/
theorem latched_arrives (h : Latched offered labels s) (call : ToolCall) (now : JsString) :
    Latched offered (labels ++ [.arrives call now]) (s.invokeTool offered call now) := by
  by_cases hopen : fromAsk offered labels = []
  · have hreason : s.reason = none := by
      rw [← Option.not_isSome_iff_eq_none, h.reason_isSome_iff]
      exact not_not_intro hopen
    obtain ⟨hbefore, hfrom⟩ := split_open hopen call now
    have hafterwards : s.afterwards = 0 := by rw [h.afterwards, hopen]; rfl
    have hforwarded : s.forwarded = (arrivals labels).map Prod.fst := by
      rw [h.forwarded, beforeAsk_of_open hopen]
    cases hask : askedToEscalate offered call.tool (some call.arguments) with
    | none =>
        -- the call is forwarded, and waits for the host
        have hnot : asks offered call = false := by
          rw [Bool.eq_false_iff, ne_eq, asks_iff, hask]
          exact nofun
        simp only [hnot, Bool.false_eq_true, if_false] at hbefore hfrom
        have hexpected : expectedAnswer offered (labels ++ [.arrives call now])
            (arrivals labels).length call now = none := by
          unfold expectedAnswer
          rw [hbefore, if_pos (by simp), hostAnswer_arrives]
          exact h.later _ (Nat.le_of_eq h.length)
        have hlatch : s.invokeTool offered call now =
            { s with
              forwarded := s.forwarded ++ [call]
              calls := s.calls ++ [{ call, answer := none }] } := by
          simp [EscalationLatch.invokeTool, hreason, hask]
        obtain ⟨hcount, hanswers, hlater⟩ := h.answers_snoc
          (congrArg EscalationLatch.calls hlatch |>.trans (by rw [hexpected]))
        refine ⟨?_, ?_, ?_, ?_, hcount, hanswers, hlater⟩
        · rw [hbefore, hlatch, List.map_append, ← hforwarded]
          rfl
        · rw [hfrom, hlatch]
          exact hreason
        · rw [hlatch]
          exact h.annotated
        · rw [hfrom, hlatch]
          exact hafterwards
    | some reason =>
        -- the call is the ask: it is answered here, under its own reason
        have hasks : asks offered call = true := by
          rw [asks_iff, hask]
          rfl
        simp only [hasks, if_true, List.append_nil] at hbefore hfrom
        have hexpected : expectedAnswer offered (labels ++ [.arrives call now])
            (arrivals labels).length call now =
              some (.ok (EscalationLatch.accept call reason now)) := by
          unfold expectedAnswer
          rw [hbefore, if_neg (Nat.lt_irrefl _), if_pos rfl, hask]
          rfl
        have hannotated : s.annotated = [] := by rw [h.annotated, hreason]; rfl
        have hlatch : s.invokeTool offered call now =
            { s with
              reason := some reason
              annotated := [(escalationAskedKey, escalationAskedAnnotation reason)]
              calls := s.calls ++
                [{ call, answer := some (.ok (EscalationLatch.accept call reason now)) }] } := by
          simp [EscalationLatch.invokeTool, hreason, hask, hannotated]
        obtain ⟨hcount, hanswers, hlater⟩ := h.answers_snoc
          (congrArg EscalationLatch.calls hlatch |>.trans (by rw [hexpected]))
        refine ⟨?_, ?_, ?_, ?_, hcount, hanswers, hlater⟩
        · rw [hbefore, hlatch, ← hforwarded]
        · rw [hfrom, hlatch]
          exact hask.symm
        · rw [hlatch]
          rfl
        · rw [hfrom, hlatch]
          exact hafterwards
  · -- the turn has ended: the call is refused
    obtain ⟨hbefore, hfrom⟩ := split_over hopen call now
    have hreason : s.reason.isSome := h.reason_isSome_iff.mpr hopen
    obtain ⟨ask, rest, hrest⟩ := List.exists_cons_of_ne_nil hopen
    have hlt : (beforeAsk offered labels).length < (arrivals labels).length := by
      have hsplit := congrArg List.length (beforeAsk_append_fromAsk offered labels)
      rw [hrest, List.length_append, List.length_cons] at hsplit
      omega
    have hexpected : expectedAnswer offered (labels ++ [.arrives call now])
        (arrivals labels).length call now = some (.ok (EscalationLatch.refuse call now)) := by
      unfold expectedAnswer
      rw [hbefore, if_neg (by omega), if_neg (by omega)]
    have hlatch : s.invokeTool offered call now =
        { s with
          afterwards := s.afterwards + 1
          calls := s.calls ++
            [{ call, answer := some (.ok (EscalationLatch.refuse call now)) }] } :=
      if_pos hreason
    obtain ⟨hcount, hanswers, hlater⟩ := h.answers_snoc
      (congrArg EscalationLatch.calls hlatch |>.trans (by rw [hexpected]))
    refine ⟨?_, ?_, ?_, ?_, hcount, hanswers, hlater⟩
    · rw [hbefore, hlatch]
      exact h.forwarded
    · rw [hfrom, hlatch, hrest]
      show s.reason = _
      rw [h.reason, hrest]
      rfl
    · rw [hlatch]
      exact h.annotated
    · rw [hfrom, hlatch, hrest]
      show s.afterwards + 1 = _
      rw [h.afterwards, hrest]
      simp

/-- The step lemma of an answer of the host: it is for a call that was forwarded and still waits. -/
theorem latched_hostAnswers (h : Latched offered labels s) {s' : EscalationLatch} {index : ℕ}
    {answer : Except Unit ToolResult} (hstep : s.hostAnswers index answer = some s') :
    Latched offered (labels ++ [.hostAnswers index answer]) s' := by
  have harrivals := arrivals_hostAnswers labels index answer
  have hbefore : beforeAsk offered (labels ++ [.hostAnswers index answer]) =
      beforeAsk offered labels := by
    unfold beforeAsk
    rw [harrivals]
  have hfrom : fromAsk offered (labels ++ [.hostAnswers index answer]) = fromAsk offered labels := by
    unfold fromAsk
    rw [harrivals]
  unfold EscalationLatch.hostAnswers at hstep
  split at hstep
  · rename_i call hcall
    cases hstep
    have hlt : index < s.calls.length := (List.getElem?_eq_some_iff.mp hcall).1
    obtain ⟨⟨arrived, now⟩, harrived⟩ : ∃ arrival, (arrivals labels)[index]? = some arrival :=
      ⟨_, List.getElem?_eq_getElem (h.length ▸ hlt)⟩
    have hwaits := h.answers index arrived now harrived
    rw [hcall, Option.some.injEq, LatchCall.mk.injEq] at hwaits
    obtain ⟨rfl, hnone⟩ := hwaits
    -- only a call from before the ask can wait
    have hindex : index < (beforeAsk offered labels).length ∧ hostAnswer index labels = none := by
      unfold expectedAnswer at hnone
      split at hnone
      · rename_i hindex
        exact ⟨hindex, hnone.symm⟩
      · rename_i hge
        split at hnone
        · rename_i heq
          rw [eq_comm, Option.map_eq_none_iff] at hnone
          have hask : asks offered call = true := by
            have hsplit := beforeAsk_append_fromAsk offered labels
            rw [← hsplit, List.getElem?_append_right (by omega), heq, Nat.sub_self] at harrived
            obtain ⟨rest, hrest⟩ : ∃ rest, fromAsk offered labels = (call, now) :: rest := by
              cases hcons : fromAsk offered labels with
              | nil =>
                  rw [hcons] at harrived
                  cases harrived
              | cons ask rest =>
                  rw [hcons] at harrived
                  cases harrived
                  exact ⟨rest, rfl⟩
            exact fromAsk_head hrest
          rw [asks_iff, hnone] at hask
          cases hask
        · cases hnone
    refine ⟨?_, ?_, h.annotated, ?_, ?_, ?_, ?_⟩
    · rw [hbefore]
      exact h.forwarded
    · rw [hfrom]
      exact h.reason
    · rw [hfrom]
      exact h.afterwards
    · rw [harrivals, ← h.length, List.length_set]
    · intro i old instant hold
      rw [harrivals] at hold
      show (s.calls.set index _)[i]? = _
      by_cases hi : index = i
      · subst hi
        rw [harrived] at hold
        cases hold
        rw [List.getElem?_set_self hlt]
        unfold expectedAnswer
        rw [hbefore, if_pos hindex.1, hostAnswer_hostAnswers, hindex.2, if_pos rfl]
        rfl
      · rw [List.getElem?_set_ne hi, h.answers i old instant hold]
        unfold expectedAnswer
        rw [hbefore, hostAnswer_hostAnswers, if_neg hi, Option.or_none]
    · intro i hi
      rw [List.length_set] at hi
      rw [hostAnswer_hostAnswers, h.later i hi, if_neg (by omega)]
      rfl
  · cases hstep

/-- The run lemma. -/
theorem latched_run {s : EscalationLatch}
    (h : run (latchStep offered) .create labels = some s) : Latched offered labels s := by
  induction labels using List.reverseRecOn generalizing s with
  | nil =>
      cases h
      exact latched_create
  | append_singleton labels label ih =>
      obtain ⟨before, hrun, hstep⟩ := run_snoc.mp h
      have hbefore := ih hrun
      cases label with
      | arrives call now =>
          cases hstep
          exact latched_arrives hbefore call now
      | hostAnswers index answer => exact latched_hostAnswers hbefore hstep

/-! ## The end of the turn -/

/-- A turn that asked ends as an escalation, whatever its harness made of it. -/
theorem settle_asked {reason : JsString} (h : s.reason = some reason)
    (outcome : RuntimeTurnOutcome) (metadata : List (JsString × Json)) :
    (s.settle outcome metadata).1 = .escalate reason ∧
      (s.settle outcome metadata).2.lookup ("callsAfterEscalation" : JsString) = some (countJson s.afterwards) := by
  unfold EscalationLatch.settle
  rw [h]
  refine ⟨rfl, ?_⟩
  dsimp only
  rw [lookup_spreadEntries, List.lookup_append]
  have hcode : ((([("harnessOutcome", .str (EscalationLatch.outcomeType outcome))] :
      List (JsString × Json)) ++ optionalEntry "harnessErrorCode"
        ((EscalationLatch.outcomeErrorCode outcome).map Json.str)).lookup
          ("callsAfterEscalation" : JsString)) = none := by
    cases EscalationLatch.outcomeErrorCode outcome <;> rfl
  rw [hcode]
  rfl

/-- How a turn stands that asked: `ask` came first, and `later` after it. -/
structure Asked (s : EscalationLatch) (ask : ToolCall) (later : List (ToolCall × JsString))
    (reason : JsString) : Prop where
  held : s.reason = some reason
  stated : ∀ text, statedReason ask.arguments = some text → trim text ≠ [] → CutFrom reason text
  fits : ReasonFits reason
  accepted : (runtimeTurnOutcomeSchema (.escalate reason)).isSome
  annotated : s.annotated = [(escalationAskedKey, escalationAskedAnnotation reason)]
  settled : ∀ outcome metadata, (s.settle outcome metadata).1 = .escalate reason ∧
    (s.settle outcome metadata).2.lookup ("callsAfterEscalation" : JsString) = some (countJson later.length)

/-- **The escalation latch ends the turn.** Over every order of calls and of the host's answers, what
comes before the first call that asks reaches the host, once each, and is answered as the host answers;
nothing after it does, and each is refused and counted; and every ending of the harness is settled as
an escalation for the first reason stated. -/
theorem turn_ends_at_the_ask (tools : List ToolDefinition) (labels : List LatchLabel)
    {s : EscalationLatch} (h : run (latchStep (escalationOffered tools)) .create labels = some s) :
    Latched (escalationOffered tools) labels s ∧
      (escalationOffered tools = false → fromAsk (escalationOffered tools) labels = []) ∧
      (fromAsk (escalationOffered tools) labels = [] →
        s.forwarded = (arrivals labels).map Prod.fst ∧ s.annotated = [] ∧
          ∀ outcome metadata, s.settle outcome metadata = (outcome, metadata)) ∧
      ∀ ask now later, fromAsk (escalationOffered tools) labels = (ask, now) :: later →
        ∃ reason, Asked s ask later reason := by
  have hlatched := latched_run h
  refine ⟨hlatched, ?_, ?_, ?_⟩
  · intro hoffered
    -- no call is an ask in a turn without the affordance
    unfold fromAsk asks
    rw [hoffered]
    exact List.dropWhile_eq_nil_iff.mpr fun _ _ => rfl
  · intro hopen
    have hreason : s.reason = none := by rw [hlatched.reason, hopen]; rfl
    refine ⟨by rw [hlatched.forwarded, beforeAsk_of_open hopen], ?_, ?_⟩
    · rw [hlatched.annotated, hreason]
      rfl
    · intro outcome metadata
      simp [EscalationLatch.settle, hreason]
  · intro ask now later hfrom
    -- the reason held is the one the first ask gave
    have hread : s.reason = askedToEscalate (escalationOffered tools) ask.tool (some ask.arguments) := by
      rw [hlatched.reason, hfrom]
      rfl
    obtain ⟨reason, hreason⟩ := Option.isSome_iff_exists.mp (asks_iff.mp (fromAsk_head hfrom))
    have hheld := hread.trans hreason
    obtain ⟨hfits, hstated⟩ := askedToEscalate_reason hreason
    refine ⟨reason, hheld, hstated, hfits, reason_accepted hfits, ?_, ?_⟩
    · rw [hlatched.annotated, hheld]
      rfl
    · intro outcome metadata
      obtain ⟨hending, hcount⟩ := settle_asked hheld outcome metadata
      refine ⟨hending, ?_⟩
      rw [hcount, hlatched.afterwards, hfrom]
      rfl

namespace Sample

/-- The affordance, as a catalogue lists it. -/
def escalateTool : ToolDefinition where
  name := escalationToolName
  description := "Ask a human to decide"
  «namespace» := "sharedos"
  source := "sharedos"
  readWrite := .write
  inputSchema := .obj []
  outputSchema := none
  requiredCapability := {
    resource := { «namespace» := "sharedos", path := ["escalations"], owner := none }
    action := "request" }
  annotations := none
  metadata := none

/-- A call made through the harness. -/
def harnessCall (id tool reason : JsString) : ToolCall where
  id := id
  tool := tool
  arguments := .obj [("reason", .str reason)]
  traceId := "trace-1"
  requestedAt := "2026-01-01T00:00:00.000Z"

/-- A read is in flight when the ask comes, and is answered after it. A second ask changes nothing. -/
def askingRun : List LatchLabel :=
  [.arrives (harnessCall "c1" "files.read" "none") "t1",
   .arrives (harnessCall "c2" escalationToolName " which one? ") "t2",
   .hostAnswers 0 (.error ()),
   .arrives (harnessCall "c3" escalationToolName "another") "t3"]

end Sample

/-- The read alone reached the host, and the turn ends for the first reason, over one call too many. -/
theorem turn_ends_at_the_ask_second :
    ∃ s, run (latchStep true) .create Sample.askingRun = some s ∧
      s.forwarded = [Sample.harnessCall "c1" "files.read" "none"] ∧ s.calls.length = 3 ∧
      ∃ reason, Asked s (Sample.harnessCall "c2" escalationToolName " which one? ")
        [(Sample.harnessCall "c3" escalationToolName "another", "t3")] reason := by
  obtain ⟨s, hs⟩ : ∃ s, run (latchStep (escalationOffered [Sample.escalateTool])) .create
      Sample.askingRun = some s := ⟨_, rfl⟩
  obtain ⟨hlatched, -, -, hasked⟩ := turn_ends_at_the_ask [Sample.escalateTool] Sample.askingRun hs
  refine ⟨s, hs, ?_, ?_, hasked _ "t2" _ rfl⟩
  · rw [hlatched.forwarded]
    rfl
  · rw [hlatched.length]
    rfl

end SharedOS.Adapters
