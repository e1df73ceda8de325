/-
SharedOS.Mcp.Stdio — MCP over newline-delimited JSON on a pair of streams.

Lines come while messages are being handled, and each waits for the one before it: a bridge that
answered out of order would show two calls in an order no record has. What the server makes of a
message, and when, is not fixed here, nor is the order of lines, answers, the end of the input and
the signal. `stdio_served` says what holds however they come.

The machine keeps the lines whose turn has come (`begun`) apart from those that wait, and whether the
last one begun is still being handled. A line that is no JSON is answered at once with a parse error,
in its turn; a message goes to the server, which answers, is silent, or throws. A hook that throws as
well breaks the chain: what waits is never begun, and a transport that finishes then rejects.

What is written is a response for each line that has one, in the order of the lines, and a response
reads back as what it was where its text does (`TextExact`).
-/
import SharedOS.Foundation.JsonLines
import SharedOS.Foundation.Run
import SharedOS.Http.Routes
import SharedOS.Mcp.Protocol

namespace SharedOS.Mcp

open SharedOS.Foundation SharedOS.Contracts SharedOS.Http

/-! ## The transport -/

/-- An identifier, as it is written. -/
def jsonRpcIdJson : JsonRpcId → Json
  | .str s => .str s
  | .num x => .num x

/-- A response, as it is written. -/
def JsonRpcResponse.toJson : JsonRpcResponse → Json
  | .success id result => .obj [("jsonrpc", .str "2.0"), ("id", jsonRpcIdJson id), ("result", result)]
  | .failure id code message =>
    .obj [("jsonrpc", .str "2.0"), ("id", (id.map jsonRpcIdJson).getD .null),
      ("error", .obj [("code", .num (.finite code)), ("message", .str message)])]

/-- What `server.handle` comes to. -/
inductive ServerAnswer where
  | response (response : JsonRpcResponse)
  /-- A notification is not answered. -/
  | nothing
  | threw

/-- Where the transport is. -/
structure StdioServer where
  /-- The lines whose turn has come, in order. -/
  begun : List JsString
  /-- The lines whose turn has not. -/
  waiting : List JsString
  /-- The last line begun is being handled. -/
  handling : Bool
  /-- What `server.handle` was called with. -/
  calls : List Json
  written : List JsonRpcResponse
  /-- How many throws `onError` was handed. -/
  reported : ℕ
  /-- `onError` threw, and nothing queued behind it is handled. -/
  broken : Bool
  aborted : Bool
  /-- Lines are still read. -/
  listening : Bool
  /-- How many lines had come where it began to finish. -/
  finishing : Option ℕ
  returned : Option (Except Unit Unit)

/-- What may happen next. -/
inductive StdioEvent where
  | line (text : JsString)
  /-- The next line has its turn. -/
  | begins
  /-- `server.handle` is back. Where it threw, `onError` may throw as well. -/
  | answers (answer : ServerAnswer) (hookThrows : Bool)
  | inputEnd
  | abort
  | returns

/-- The answer to a line that is no JSON. -/
def parseErrorResponse : JsonRpcResponse :=
  jsonRpcError none jsonRpcParseError "Message is not valid JSON."

namespace StdioServer

/-- A signal that is already raised aborts the controller before anything listens to it. -/
def start (aborted : Bool) : StdioServer where
  begun := []
  waiting := []
  handling := false
  calls := []
  written := []
  reported := 0
  broken := false
  aborted
  listening := true
  finishing := none
  returned := none

/-- A line is queued, unless it is blank. -/
def onLine (s : StdioServer) (text : JsString) : StdioServer :=
  if trim text = [] then s else { s with waiting := s.waiting ++ [trim text] }

/-- The turn of a line. -/
def beginLine (s : StdioServer) (line : JsString) (rest : List JsString) : StdioServer :=
  let s := { s with begun := s.begun ++ [line], waiting := rest }
  match jsonParse line with
  | none => { s with written := s.written ++ [parseErrorResponse] }
  | some message => { s with calls := s.calls ++ [message], handling := true }

/-- The server is back. -/
def onAnswer (s : StdioServer) (answer : ServerAnswer) (hookThrows : Bool) : StdioServer :=
  let s := { s with handling := false }
  match answer with
  | .response response => { s with written := s.written ++ [response] }
  | .nothing => s
  | .threw => { s with reported := s.reported + 1, broken := hookThrows }

/-- `finish`. What is queued by now is waited for. -/
def finish (s : StdioServer) : StdioServer :=
  { s with finishing := s.finishing.or (some (s.begun.length + s.waiting.length)) }

/-- How many lines are done with. -/
def settled (s : StdioServer) : ℕ := if s.handling then s.begun.length - 1 else s.begun.length

/-- The queue as it was awaited has been worked off, or has failed. -/
def onReturn (s : StdioServer) (awaited : ℕ) : Option StdioServer :=
  if s.broken ∧ s.begun.length ≤ awaited then some { s with returned := some (.error ()) }
  else if awaited ≤ s.settled then
    some { s with returned := some (.ok ()), listening := false }
  else none

/-- One step of the transport. -/
def step (s : StdioServer) : StdioEvent → Option StdioServer
  | .line text => if s.listening then some (s.onLine text) else none
  | .begins =>
    match s.waiting with
    | line :: rest => if s.handling || s.broken then none else some (s.beginLine line rest)
    | [] => none
  | .answers answer hookThrows => if s.handling then some (s.onAnswer answer hookThrows) else none
  | .inputEnd => if s.listening then some { s.finish with listening := false } else none
  | .abort =>
    match s.aborted, s.returned with
    | true, _ | _, some (.ok _) => none
    | false, _ => some { s.finish with aborted := true }
  | .returns =>
    match s.finishing, s.returned with
    | some awaited, none => s.onReturn awaited
    | _, _ => none

end StdioServer

/-! ## What is owed -/

/-- The line an event brings, if it is not blank. -/
def StdioEvent.line? : StdioEvent → Option JsString
  | .line text => if trim text = [] then none else some (trim text)
  | _ => none

/-- What the server answered, where it did. -/
def StdioEvent.answer? : StdioEvent → Option ServerAnswer
  | .answers answer _ => some answer
  | _ => none

/-- The transport begins to finish. -/
def StdioEvent.finishes : StdioEvent → Bool
  | .inputEnd | .abort => true
  | _ => false

/-- The lines that have come, in order. -/
def arrived (events : List StdioEvent) : List JsString := events.filterMap StdioEvent.line?

/-- The answers `server.handle` has given, in order. -/
def answersGiven (events : List StdioEvent) : List ServerAnswer :=
  events.filterMap StdioEvent.answer?

/-- The lines that had come before the transport began to finish. -/
def promised (events : List StdioEvent) : List JsString :=
  arrived (events.takeWhile fun event => !event.finishes)

/-- The response of an answer that is one. -/
def ServerAnswer.response? : ServerAnswer → Option JsonRpcResponse
  | .response written => some written
  | .nothing | .threw => none

/-- The lines served one after the other: what is no JSON is refused, and each message has the next
answer, for as long as there is one. -/
def served : List JsString → List ServerAnswer → List JsonRpcResponse
  | [], _ => []
  | line :: lines, answers =>
    match jsonParse line, answers with
    | none, answers => parseErrorResponse :: served lines answers
    | some _, [] => []
    | some _, answer :: answers => answer.response?.toList ++ served lines answers

/-- Lines whose messages are all answered are served whatever comes behind them. -/
theorem served_append {lines : List JsString} {answers : List ServerAnswer}
    (h : (lines.filterMap jsonParse).length = answers.length) (more : List JsString)
    (later : List ServerAnswer) :
    served (lines ++ more) (answers ++ later) = served lines answers ++ served more later := by
  induction lines generalizing answers with
  | nil =>
      obtain rfl := List.eq_nil_of_length_eq_zero h.symm
      rfl
  | cons line lines ih =>
      cases hline : jsonParse line with
      | none =>
          have hrest : (lines.filterMap jsonParse).length = answers.length := by
            simpa [hline] using h
          simp [served, hline, ih hrest]
      | some message =>
          cases answers with
          | nil => simp [hline] at h
          | cons answer answers =>
              have hrest : (lines.filterMap jsonParse).length = answers.length := by
                simpa [hline] using h
              simp [served, hline, ih hrest]

/-- Lines that come later change nothing that was served. -/
theorem served_prefix (lines more : List JsString) (answers : List ServerAnswer) :
    served lines answers <+: served (lines ++ more) answers := by
  induction lines generalizing answers with
  | nil => exact List.nil_prefix
  | cons line lines ih =>
      cases hline : jsonParse line with
      | none =>
          simp only [List.cons_append, served, hline]
          exact List.prefix_cons_inj _ |>.mpr (ih answers)
      | some message =>
          cases answers with
          | nil =>
              simp only [served, hline]
              exact List.nil_prefix
          | cons answer answers =>
              simp only [List.cons_append, served, hline]
              exact (List.prefix_append_right_inj _).mpr (ih answers)

theorem promised_snoc (events : List StdioEvent) (event : StdioEvent) :
    promised (events ++ [event]) =
      if events.any StdioEvent.finishes then promised events
      else arrived events ++ if event.finishes then [] else event.line?.toList := by
  unfold promised
  by_cases hany : events.any StdioEvent.finishes = true
  · -- what ends the promise is among the first events
    rw [if_pos hany]
    obtain ⟨ending, hmem, hends⟩ := List.any_eq_true.mp hany
    rw [List.takeWhile_append, if_neg]
    intro hlength
    have hall := List.takeWhile_eq_self_iff.mp
      ((List.takeWhile_prefix (p := fun event : StdioEvent => !event.finishes)).eq_of_length hlength)
    have hnot := hall ending hmem
    rw [hends] at hnot
    cases hnot
  · rw [if_neg hany]
    have hself : events.takeWhile (fun event => !event.finishes) = events := by
      refine List.takeWhile_eq_self_iff.mpr fun event hmem => ?_
      have hnot : ¬ event.finishes = true := fun hends =>
        hany (List.any_eq_true.mpr ⟨event, hmem, hends⟩)
      simpa using hnot
    rw [List.takeWhile_append, if_pos (by rw [hself])]
    unfold arrived
    rw [List.filterMap_append]
    cases hends : event.finishes with
    | true => simp [hends]
    | false => cases hline : event.line? <;> simp [hends, hline]

/-! ## One event -/

/-- The account of a transport after these events. -/
structure StdioKept (aborted : Bool) (events : List StdioEvent) (s : StdioServer) : Prop where
  order : arrived events = s.begun ++ s.waiting
  calls : s.calls = s.begun.filterMap jsonParse
  alone : s.calls.length = (answersGiven events).length + if s.handling then 1 else 0
  /-- What is being handled is the last line begun. -/
  last : s.handling = true → ∃ before line, s.begun = before ++ [line] ∧ (jsonParse line).isSome
  written : s.written = served s.begun (answersGiven events)
  finishing : s.finishing =
    if events.any StdioEvent.finishes then some (promised events).length else none
  aborts : aborted = true → s.aborted = true ∧ .abort ∉ events
  ended : ∀ settled, s.returned = some settled → s.finishing.isSome = true
  complete : s.returned = some (.ok ()) → (promised events).length ≤ s.settled

section Events

variable {aborted : Bool} {events : List StdioEvent} {event : StdioEvent} {s s' : StdioServer}

theorem arrived_snoc (events : List StdioEvent) (event : StdioEvent) :
    arrived (events ++ [event]) = arrived events ++ event.line?.toList := by
  unfold arrived
  rw [List.filterMap_append]
  cases h : event.line? <;> simp [h]

theorem answersGiven_snoc (events : List StdioEvent) (event : StdioEvent) :
    answersGiven (events ++ [event]) = answersGiven events ++ event.answer?.toList := by
  unfold answersGiven
  rw [List.filterMap_append]
  cases h : event.answer? <;> simp [h]

theorem kept_start (aborted : Bool) : StdioKept aborted [] (.start aborted) where
  order := rfl
  calls := rfl
  alone := rfl
  last h := by cases h
  written := rfl
  finishing := rfl
  aborts h := ⟨h, List.not_mem_nil⟩
  ended _ h := by cases h
  complete h := by cases h

/-- Once it finishes, the lines it has promised stay the same. -/
theorem StdioKept.promised_kept (hk : StdioKept aborted events s) (hreturned : s.returned.isSome = true) :
    promised (events ++ [event]) = promised events := by
  obtain ⟨settled, hsettled⟩ := Option.isSome_iff_exists.mp hreturned
  have hfinishing := hk.ended settled hsettled
  rw [hk.finishing] at hfinishing
  rw [promised_snoc, if_pos]
  by_contra hany
  rw [if_neg hany] at hfinishing
  cases hfinishing

/-- Where an event does not finish, the account of the finish is as it was. -/
theorem StdioKept.finishing_kept (hk : StdioKept aborted events s) (hplain : event.finishes = false) :
    s.finishing = if (events ++ [event]).any StdioEvent.finishes
      then some (promised (events ++ [event])).length else none := by
  rw [hk.finishing, List.any_append, List.any_cons, List.any_nil, hplain, Bool.or_false, Bool.or_false]
  by_cases hany : events.any StdioEvent.finishes = true
  · rw [if_pos hany, if_pos hany, promised_snoc, if_pos hany]
  · rw [if_neg hany, if_neg hany]

/-- What is done with stays so. -/
theorem StdioKept.complete_kept (hk : StdioKept aborted events s) (hreturned : s'.returned = s.returned)
    (hsettled : s.settled ≤ s'.settled) (hok : s'.returned = some (.ok ())) :
    (promised (events ++ [event])).length ≤ s'.settled := by
  rw [hreturned] at hok
  rw [hk.promised_kept (by rw [hok]; rfl)]
  exact (hk.complete hok).trans hsettled

theorem StdioKept.line (hk : StdioKept aborted events s) (text : JsString) :
    StdioKept aborted (events ++ [.line text]) (s.onLine text) := by
  by_cases hblank : trim text = []
  · have hline : (StdioEvent.line text).line? = none := if_pos hblank
    rw [StdioServer.onLine, if_pos hblank]
    refine ⟨?_, hk.calls, ?_, hk.last, ?_, hk.finishing_kept rfl, ?_, hk.ended, ?_⟩
    · rw [arrived_snoc, hline, Option.toList_none, List.append_nil]
      exact hk.order
    · simpa [answersGiven_snoc, StdioEvent.answer?] using hk.alone
    · simpa [answersGiven_snoc, StdioEvent.answer?] using hk.written
    · exact fun h => ⟨(hk.aborts h).1, by simpa using (hk.aborts h).2⟩
    · exact hk.complete_kept rfl le_rfl
  · have hline : (StdioEvent.line text).line? = some (trim text) := if_neg hblank
    rw [StdioServer.onLine, if_neg hblank]
    refine ⟨?_, hk.calls, ?_, hk.last, ?_, hk.finishing_kept rfl, ?_, hk.ended, ?_⟩
    · rw [arrived_snoc, hline, hk.order]
      simp
    · simpa [answersGiven_snoc, StdioEvent.answer?] using hk.alone
    · simpa [answersGiven_snoc, StdioEvent.answer?] using hk.written
    · exact fun h => ⟨(hk.aborts h).1, by simpa using (hk.aborts h).2⟩
    · exact hk.complete_kept rfl le_rfl

/-- A line that is begun while nothing is handled. -/
theorem StdioKept.begins (hk : StdioKept aborted events s) {line : JsString} {rest : List JsString}
    (hwaiting : s.waiting = line :: rest) (hidle : s.handling = false) :
    StdioKept aborted (events ++ [.begins]) (s.beginLine line rest) := by
  have hgiven : answersGiven (events ++ [.begins]) = answersGiven events := by
    simp [answersGiven_snoc, StdioEvent.answer?]
  have harrived : arrived (events ++ [.begins]) = (s.begun ++ [line]) ++ rest := by
    rw [arrived_snoc, hk.order, hwaiting]
    simp [StdioEvent.line?]
  -- all that was begun has been answered
  have hanswered : (s.begun.filterMap jsonParse).length = (answersGiven events).length := by
    rw [← hk.calls, hk.alone, hidle]
    rfl
  have hserved := served_append hanswered [line] []
  rw [List.append_nil] at hserved
  have hsettled : s.settled = s.begun.length := by simp [StdioServer.settled, hidle]
  unfold StdioServer.beginLine
  cases hline : jsonParse line with
  | none =>
      refine ⟨harrived, ?_, ?_, ?_, ?_, hk.finishing_kept rfl, ?_, hk.ended, ?_⟩
      · simp [hk.calls, hline]
      · rw [hgiven]
        exact hk.alone
      · intro hhandling
        exact absurd (hidle.symm.trans hhandling) (by decide)
      · rw [hgiven]
        show s.written ++ [parseErrorResponse] = served (s.begun ++ [line]) (answersGiven events)
        rw [hserved, hk.written]
        simp [served, hline]
      · exact fun h => ⟨(hk.aborts h).1, by simpa using (hk.aborts h).2⟩
      · refine hk.complete_kept rfl ?_
        rw [hsettled]
        simp [StdioServer.settled, hidle]
  | some message =>
      refine ⟨harrived, ?_, ?_, ?_, ?_, hk.finishing_kept rfl, ?_, hk.ended, ?_⟩
      · simp [hk.calls, hline]
      · rw [hgiven]
        show (s.calls ++ [message]).length = (answersGiven events).length + 1
        rw [List.length_append, hk.alone, hidle]
        rfl
      · exact fun _ => ⟨s.begun, line, rfl, by rw [hline]; rfl⟩
      · rw [hgiven]
        show s.written = served (s.begun ++ [line]) (answersGiven events)
        rw [hserved, hk.written]
        simp [served, hline]
      · exact fun h => ⟨(hk.aborts h).1, by simpa using (hk.aborts h).2⟩
      · refine hk.complete_kept rfl ?_
        rw [hsettled]
        simp [StdioServer.settled]

theorem StdioKept.answers (hk : StdioKept aborted events s) (hhandling : s.handling = true)
    (answer : ServerAnswer) (hookThrows : Bool) :
    StdioKept aborted (events ++ [.answers answer hookThrows]) (s.onAnswer answer hookThrows) := by
  obtain ⟨before, line, hbegun, hline⟩ := hk.last hhandling
  have hcount : (before.filterMap jsonParse).length = (answersGiven events).length := by
    have halone := hk.alone
    rw [hk.calls, hbegun, hhandling, if_pos rfl] at halone
    obtain ⟨message, hmessage⟩ := Option.isSome_iff_exists.mp hline
    simpa [hmessage] using halone
  have hserved : served s.begun (answersGiven events ++ [answer]) =
      s.written ++ answer.response?.toList := by
    obtain ⟨message, hmessage⟩ := Option.isSome_iff_exists.mp hline
    have hbefore := served_append hcount [line] []
    rw [List.append_nil] at hbefore
    rw [hk.written, hbegun, served_append hcount, hbefore]
    simp [served, hmessage]
  have hgiven : answersGiven (events ++ [.answers answer hookThrows]) =
      answersGiven events ++ [answer] := by
    simp [answersGiven_snoc, StdioEvent.answer?]
  -- the parts that do not depend on what the answer is
  have hs' : (s.onAnswer answer hookThrows).begun = s.begun ∧
      (s.onAnswer answer hookThrows).waiting = s.waiting ∧
      (s.onAnswer answer hookThrows).calls = s.calls ∧
      (s.onAnswer answer hookThrows).handling = false ∧
      (s.onAnswer answer hookThrows).finishing = s.finishing ∧
      (s.onAnswer answer hookThrows).aborted = s.aborted ∧
      (s.onAnswer answer hookThrows).returned = s.returned ∧
      (s.onAnswer answer hookThrows).written = s.written ++ answer.response?.toList := by
    cases answer <;> simp [StdioServer.onAnswer, ServerAnswer.response?]
  obtain ⟨hbegun', hwaiting', hcalls', hhandling', hfinishing', haborted', hreturned', hwritten'⟩ := hs'
  refine ⟨?_, ?_, ?_, ?_, ?_, ?_, ?_, ?_, ?_⟩
  · rw [arrived_snoc, hbegun', hwaiting']
    simpa [StdioEvent.line?] using hk.order
  · rw [hcalls', hbegun']
    exact hk.calls
  · rw [hcalls', hhandling', hgiven, hk.alone, hhandling]
    simp
  · intro h
    rw [hhandling'] at h
    cases h
  · rw [hwritten', hbegun', hgiven, hserved]
  · rw [hfinishing']
    exact hk.finishing_kept rfl
  · rw [haborted']
    exact fun h => ⟨(hk.aborts h).1, by simpa using (hk.aborts h).2⟩
  · rw [hreturned', hfinishing']
    exact hk.ended
  · refine hk.complete_kept hreturned' ?_
    unfold StdioServer.settled
    rw [hhandling', hbegun', hhandling]
    simp

/-- The transport begins to finish: what has come by now is promised, if nothing was before. -/
theorem StdioKept.finish_eq (hk : StdioKept aborted events s) (hfinishes : event.finishes = true) :
    s.finish.finishing = if (events ++ [event]).any StdioEvent.finishes
      then some (promised (events ++ [event])).length else none := by
  rw [List.any_append, List.any_cons, hfinishes, Bool.true_or, Bool.or_true, if_pos rfl]
  show s.finishing.or (some (s.begun.length + s.waiting.length)) = _
  rw [hk.finishing, promised_snoc, hfinishes]
  by_cases hany : events.any StdioEvent.finishes = true
  · rw [if_pos hany, if_pos hany]
    rfl
  · rw [if_neg hany, if_neg hany, if_pos rfl, List.append_nil, hk.order, List.length_append]
    rfl

theorem StdioKept.finishes (hk : StdioKept aborted events s) (hfinishes : event.finishes = true)
    (hbegun : s'.begun = s.begun) (hwaiting : s'.waiting = s.waiting)
    (hhandling : s'.handling = s.handling) (hcalls : s'.calls = s.calls)
    (hwritten : s'.written = s.written) (hfinishing : s'.finishing = s.finish.finishing)
    (haborts : aborted = true → s'.aborted = true ∧ .abort ∉ events ++ [event])
    (hreturned : s'.returned = s.returned) :
    StdioKept aborted (events ++ [event]) s' := by
  have hplain : event.line? = none ∧ event.answer? = none := by
    cases event <;> first | exact ⟨rfl, rfl⟩ | cases hfinishes
  refine ⟨?_, ?_, ?_, ?_, ?_, ?_, haborts, ?_, ?_⟩
  · rw [arrived_snoc, hplain.1, hbegun, hwaiting, Option.toList_none, List.append_nil]
    exact hk.order
  · rw [hcalls, hbegun]
    exact hk.calls
  · rw [hcalls, hhandling, answersGiven_snoc, hplain.2, Option.toList_none, List.append_nil]
    exact hk.alone
  · rw [hhandling, hbegun]
    exact hk.last
  · rw [hwritten, hbegun, answersGiven_snoc, hplain.2, Option.toList_none, List.append_nil]
    exact hk.written
  · rw [hfinishing]
    exact hk.finish_eq hfinishes
  · intro settled hsettled
    rw [hfinishing, hk.finish_eq hfinishes, if_pos]
    · rfl
    · simp [hfinishes]
  · refine hk.complete_kept hreturned ?_
    simp [StdioServer.settled, hhandling, hbegun]

/-- The transport returns, or fails, with what it had awaited. -/
theorem StdioKept.returns (hk : StdioKept aborted events s) {awaited : ℕ}
    (hfinishing : s.finishing = some awaited) (h : s.onReturn awaited = some s') :
    StdioKept aborted (events ++ [.returns]) s' := by
  have harrived : arrived (events ++ [.returns]) = arrived events := by
    simp [arrived_snoc, StdioEvent.line?]
  have hgiven : answersGiven (events ++ [.returns]) = answersGiven events := by
    simp [answersGiven_snoc, StdioEvent.answer?]
  have hpromised : promised (events ++ [.returns]) = promised events ∧
      awaited = (promised events).length := by
    have hheld := hk.finishing
    rw [hfinishing] at hheld
    by_cases hany : events.any StdioEvent.finishes = true
    · rw [if_pos hany] at hheld
      rw [promised_snoc, if_pos hany]
      exact ⟨rfl, Option.some.inj hheld⟩
    · rw [if_neg hany] at hheld
      cases hheld
  have haborts : aborted = true → s.aborted = true ∧ StdioEvent.abort ∉ events ++ [.returns] :=
    fun h => ⟨(hk.aborts h).1, by simpa using (hk.aborts h).2⟩
  unfold StdioServer.onReturn at h
  split at h
  · obtain rfl := Option.some.inj h
    refine ⟨harrived.trans hk.order, hk.calls, ?_, hk.last, ?_, hk.finishing_kept rfl, haborts, ?_, ?_⟩
    · rw [hgiven]
      exact hk.alone
    · rw [hgiven]
      exact hk.written
    · intro settled _
      show s.finishing.isSome = true
      rw [hfinishing]
      rfl
    · intro hok
      cases hok
  split at h
  · next hsettled =>
      obtain rfl := Option.some.inj h
      refine ⟨harrived.trans hk.order, hk.calls, ?_, hk.last, ?_, hk.finishing_kept rfl, haborts, ?_, ?_⟩
      · rw [hgiven]
        exact hk.alone
      · rw [hgiven]
        exact hk.written
      · intro settled _
        show s.finishing.isSome = true
        rw [hfinishing]
        rfl
      · intro _
        rw [hpromised.1, ← hpromised.2]
        exact hsettled
  · cases h

/-- **One event.** -/
theorem StdioKept.step (hk : StdioKept aborted events s) (h : s.step event = some s') :
    StdioKept aborted (events ++ [event]) s' := by
  cases event with
  | line text =>
      simp only [StdioServer.step] at h
      split at h
      · obtain rfl := Option.some.inj h
        exact hk.line text
      · cases h
  | begins =>
      simp only [StdioServer.step] at h
      split at h
      · next line rest hwaiting =>
          split at h
          · cases h
          · next hidle =>
              obtain rfl := Option.some.inj h
              rw [Bool.not_eq_true, Bool.or_eq_false_iff] at hidle
              exact hk.begins hwaiting hidle.1
      · cases h
  | answers answer hookThrows =>
      simp only [StdioServer.step] at h
      split at h
      · next hhandling =>
          obtain rfl := Option.some.inj h
          exact hk.answers hhandling answer hookThrows
      · cases h
  | inputEnd =>
      simp only [StdioServer.step] at h
      split at h
      · obtain rfl := Option.some.inj h
        refine hk.finishes rfl rfl rfl rfl rfl rfl rfl ?_ rfl
        exact fun h => ⟨(hk.aborts h).1, by simpa using (hk.aborts h).2⟩
      · cases h
  | abort =>
      simp only [StdioServer.step] at h
      split at h
      · cases h
      · cases h
      · next hlive _ =>
          obtain rfl := Option.some.inj h
          refine hk.finishes rfl rfl rfl rfl rfl rfl rfl (fun haborted => ?_) rfl
          rw [(hk.aborts haborted).1] at hlive
          cases hlive
  | returns =>
      simp only [StdioServer.step] at h
      split at h
      · next awaited hfinishing _ => exact hk.returns hfinishing h
      · cases h

/-- Under a signal that was raised before, only the end of the input is waited for. -/
theorem StdioKept.inputEnded (hk : StdioKept aborted events s) (haborted : aborted = true)
    (hreturned : s.returned.isSome = true) : StdioEvent.inputEnd ∈ events := by
  obtain ⟨settled, hsettled⟩ := Option.isSome_iff_exists.mp hreturned
  have hfinishing := hk.ended settled hsettled
  rw [hk.finishing] at hfinishing
  split at hfinishing
  · next hany =>
      obtain ⟨event, hmem, hfinishes⟩ := List.any_eq_true.mp hany
      cases event with
      | inputEnd => exact hmem
      | abort => exact absurd hmem (hk.aborts haborted).2
      | line | begins | answers | returns => cases hfinishes
  · cases hfinishing

theorem stdio_kept (h : run StdioServer.step (.start aborted) events = some s) :
    StdioKept aborted events s := by
  induction events using List.reverseRecOn generalizing s with
  | nil =>
      obtain rfl := Option.some.inj h
      exact kept_start aborted
  | append_singleton events event ih =>
      obtain ⟨before, hbefore, hstep⟩ := run_snoc.mp h
      exact (ih hbefore).step hstep

end Events

/-! ## A whole run -/

section Runs

variable [HostPlatform]

/-- What is on the output. -/
def StdioServer.output (s : StdioServer) : JsString :=
  jsonLines (s.written.map fun response => response.toJson.stringify HostPlatform.numberToString)

/-- What a client of the transport may rely on. -/
structure StdioServed (aborted : Bool) (events : List StdioEvent) (s : StdioServer) : Prop where
  /-- The messages are handled in the order of their lines. -/
  inOrder : s.calls <+: (arrived events).filterMap jsonParse
  /-- None is before the one before it is answered. -/
  alone : s.calls.length ≤ (answersGiven events).length + 1
  /-- The responses are those of serving the lines one by one, as far as that has come. -/
  answered : s.written <+: served (arrived events) (answersGiven events)
  caughtUp : s.waiting = [] → s.written = served (arrived events) (answersGiven events)
  /-- The next line has its turn once nothing is handled, unless `onError` has thrown. -/
  live : s.waiting ≠ [] → s.handling = false → s.broken = false → (s.step .begins).isSome = true
  /-- It returns only once it was to finish, and done with every line that had come by then. -/
  complete : s.returned = some (.ok ()) →
    promised events <+: s.begun.take s.settled ∧ ∃ event ∈ events, event.finishes = true
  /-- A signal that was raised before does not make it finish: only the end of the input does. -/
  raisedBefore : aborted = true → s.returned.isSome = true → .inputEnd ∈ events
  /-- The output is one response a line, and each line is read back. -/
  framed : (∀ response ∈ s.written, TextExact response.toJson) →
    ∃ texts, s.output.splitOn lineFeed = texts ++ [[]] ∧
      texts.map jsonParse = s.written.map fun response => some response.toJson

variable {aborted : Bool} {events : List StdioEvent} {s : StdioServer}

/-- **Messages are answered one by one, in the order they came.** -/
theorem stdio_served (h : run StdioServer.step (.start aborted) events = some s) :
    StdioServed aborted events s where
  inOrder := by
    rw [(stdio_kept h).calls, (stdio_kept h).order, List.filterMap_append]
    exact List.prefix_append _ _
  alone := by
    rw [(stdio_kept h).alone]
    split <;> omega
  answered := by
    rw [(stdio_kept h).written, (stdio_kept h).order]
    exact served_prefix _ _ _
  caughtUp hwaiting := by
    rw [(stdio_kept h).written, (stdio_kept h).order, hwaiting, List.append_nil]
  live hwaiting hidle hwhole := by
    obtain ⟨line, rest, hline⟩ := List.exists_cons_of_ne_nil hwaiting
    simp [StdioServer.step, hline, hidle, hwhole]
  complete hok := by
    have hk := stdio_kept h
    have hfinishing := hk.ended _ hok
    rw [hk.finishing] at hfinishing
    split at hfinishing
    · next hany =>
        refine ⟨?_, List.any_eq_true.mp hany⟩
        -- both are prefixes of the lines that have come, and one is no longer
        have hpromised : promised events <+: arrived events :=
          List.IsPrefix.filterMap _ (List.takeWhile_prefix _)
        have hbegun : s.begun.take s.settled <+: arrived events := by
          rw [hk.order]
          exact (List.take_prefix _ _).trans (List.prefix_append _ _)
        refine List.prefix_of_prefix_length_le hpromised hbegun ?_
        rw [List.length_take]
        have hsettled : s.settled ≤ s.begun.length := by
          unfold StdioServer.settled
          split <;> omega
        have hcomplete := hk.complete hok
        omega
    · cases hfinishing
  raisedBefore := (stdio_kept h).inputEnded
  framed hexact := by
    unfold StdioServer.output
    refine ⟨_, splitOn_jsonLines ?_, ?_⟩
    · intro text htext
      obtain ⟨response, hresponse, rfl⟩ := List.mem_map.mp htext
      exact stringify_printable (hexact response hresponse).numbers
    · rw [List.map_map]
      exact List.map_congr_left fun response hresponse =>
        jsonParse_of_textExact (hexact response hresponse)

end Runs

namespace StdioServer.Sample

open scoped SharedOS.Foundation.Reference

/-- A second line comes, and the input ends, while the first message is being handled. -/
def events : List StdioEvent :=
  [.line "{}", .begins, .line "x", .inputEnd,
    .answers (.response (jsonRpcResult (.str "1") .null)) false, .begins, .returns]

/-- Where the transport is then. -/
def after : StdioServer := (run step (.start false) events).getD (.start false)

theorem stdio_served_two : after.written.length = 2 ∧ StdioServed false events after := by
  have hruns : run step (.start false) events = some after := rfl
  exact ⟨rfl, stdio_served hruns⟩

end StdioServer.Sample

end SharedOS.Mcp
