/-
SharedOS.Adapters.Conversation — what a model is shown, and what becomes of the calls it asks for.

A conversation is replies and answers, and what is outstanding in it is a list of ids (`Conversing`).
The queue, the call the loop has and the messages move together, so that the client is called only
where nothing is outstanding. Every step keeps this (`seatInv_step`), and with it the counts: how often
one `next` calls the client, and how many calls are answered on the spot.
-/
import SharedOS.Adapters.ModelDriver
import SharedOS.Foundation.History

namespace SharedOS.Adapters

open SharedOS.Foundation SharedOS.Contracts SharedOS.Mcp SharedOS.Runtime

/-! ## Conversations -/

namespace ModelMessage

/-- Whether the assistant said it. -/
def isAssistant : ModelMessage → Bool
  | assistant .. => true
  | _ => false

/-- The call a message answers. -/
def answeredId : ModelMessage → Option JsString
  | tool toolCallId _ => some toolCallId
  | _ => none

end ModelMessage

/-- The calls answered before the next reply, in order. -/
def answersBefore (messages : List ModelMessage) : List JsString :=
  (messages.takeWhile fun message => !message.isAssistant).filterMap ModelMessage.answeredId

/-- The calls of every reply are answered, each once and in the order asked, before the next reply. -/
def CallsAnswered (messages : List ModelMessage) : Prop :=
  ∀ before content toolCalls after, messages = before ++ .assistant content toolCalls :: after →
    answersBefore after = toolCalls.map ModelToolCall.id

/-- A conversation in which these ids are still to be answered, in this order. -/
inductive Conversing : List ModelMessage → List JsString → Prop
  | opening {messages : List ModelMessage}
      (h : ∀ message ∈ messages, message.isAssistant = false ∧ message.answeredId = none) :
      Conversing messages []
  | reply {messages : List ModelMessage} (content : JsString) (toolCalls : List ModelToolCall)
      (h : Conversing messages []) :
      Conversing (messages ++ [.assistant content toolCalls]) (toolCalls.map ModelToolCall.id)
  | answer {messages : List ModelMessage} {id : JsString} {ids : List JsString} (content : JsString)
      (h : Conversing messages (id :: ids)) : Conversing (messages ++ [.tool id content]) ids

theorem answersBefore_snoc (messages : List ModelMessage) (message : ModelMessage) :
    answersBefore (messages ++ [message]) =
      if messages.any ModelMessage.isAssistant ∨ message.isAssistant then answersBefore messages
      else answersBefore messages ++ message.answeredId.toList := by
  unfold answersBefore
  by_cases hany : messages.any ModelMessage.isAssistant
  · rw [if_pos (.inl hany)]
    obtain ⟨reply, hreply, hassistant⟩ := List.any_eq_true.mp hany
    rw [List.takeWhile_append, if_neg]
    intro hlength
    have hall := (List.takeWhile_prefix fun message : ModelMessage =>
      !message.isAssistant).eq_of_length hlength
    have := List.mem_takeWhile_imp (hall ▸ hreply)
    rw [hassistant] at this
    cases this
  · have hall : messages.takeWhile (fun message => !message.isAssistant) = messages := by
      refine List.takeWhile_eq_self_iff.mpr fun message hin => ?_
      rw [Bool.not_eq_true']
      exact Bool.eq_false_iff.mpr fun h => hany (List.any_eq_true.mpr ⟨message, hin, h⟩)
    rw [List.takeWhile_append, if_pos (congrArg List.length hall), hall]
    cases hassistant : message.isAssistant with
    | true =>
        rw [if_pos (.inr rfl), List.takeWhile_cons_of_neg (by rw [hassistant]; exact nofun),
          List.append_nil]
    | false =>
        rw [if_neg (by rintro (h | h); exacts [hany h, nomatch h]),
          List.takeWhile_cons_of_pos (by rw [hassistant]; rfl), List.takeWhile_nil,
          List.filterMap_append]
        cases hanswered : message.answeredId with
        | none => rw [List.filterMap_cons_none hanswered]; rfl
        | some id => rw [List.filterMap_cons_some hanswered]; rfl

/-- After the last reply what is outstanding follows what was answered, and before it nothing is. -/
theorem Conversing.answered {messages : List ModelMessage} {ids : List JsString}
    (h : Conversing messages ids) : ∀ before content toolCalls after,
      messages = before ++ .assistant content toolCalls :: after →
        answersBefore after ++ (if after.any ModelMessage.isAssistant then [] else ids) =
          toolCalls.map ModelToolCall.id := by
  induction h with
  | opening hopening =>
      intro before content toolCalls after heq
      have hin : ModelMessage.assistant content toolCalls ∈ before ++
          .assistant content toolCalls :: after := List.mem_append_right _ List.mem_cons_self
      have := (hopening _ (heq ▸ hin)).1
      cases this
  | reply text asked _ ih =>
      intro before content toolCalls after heq
      rcases List.eq_nil_or_concat after with rfl | ⟨rest, last, rfl⟩
      · obtain ⟨-, hlast⟩ := List.append_inj' heq rfl
        obtain ⟨-, rfl⟩ := ModelMessage.assistant.inj (List.cons.inj hlast).1
        rfl
      · rw [List.concat_eq_append, ← List.cons_append, ← List.append_assoc] at heq
        obtain ⟨hmessages, hlast⟩ := List.append_inj' heq rfl
        obtain rfl := (List.cons.inj hlast).1
        have hrest := ih before content toolCalls rest hmessages
        rw [ite_self, List.append_nil] at hrest
        rw [List.concat_eq_append, answersBefore_snoc, if_pos (.inr rfl), hrest, List.any_append,
          if_pos (by rw [Bool.or_eq_true]; exact .inr rfl), List.append_nil]
  | @answer _ id ids text _ ih =>
      intro before content toolCalls after heq
      rcases List.eq_nil_or_concat after with rfl | ⟨rest, last, rfl⟩
      · obtain ⟨-, hlast⟩ := List.append_inj' heq rfl
        cases (List.cons.inj hlast).1
      · rw [List.concat_eq_append, ← List.cons_append, ← List.append_assoc] at heq
        obtain ⟨hmessages, hlast⟩ := List.append_inj' heq rfl
        obtain rfl := (List.cons.inj hlast).1
        have hrest := ih before content toolCalls rest hmessages
        have hany : (rest ++ [ModelMessage.tool id text]).any ModelMessage.isAssistant =
            rest.any ModelMessage.isAssistant := by
          rw [List.any_append]
          exact Bool.or_false _
        rw [List.concat_eq_append, answersBefore_snoc, hany]
        by_cases hreply : rest.any ModelMessage.isAssistant
        · rw [if_pos (.inl hreply), if_pos hreply]
          rw [if_pos hreply] at hrest
          exact hrest
        · rw [if_neg (by rintro (h | h); exacts [hreply h, nomatch h]), if_neg hreply]
          rw [if_neg hreply] at hrest
          rw [← hrest, List.append_assoc]
          rfl

/-- Where nothing is outstanding, every call has been answered. -/
theorem Conversing.callsAnswered {messages : List ModelMessage} (h : Conversing messages []) :
    CallsAnswered messages := by
  intro before content toolCalls after heq
  have hanswered := h.answered before content toolCalls after heq
  rw [ite_self, List.append_nil] at hanswered
  exact hanswered

/-! ## What is read off the log -/

namespace SeatEvent

/-- Whether the model was asked. -/
def isAsked : SeatEvent → Bool
  | asked => true
  | _ => false

/-- Whether a call was handed to the loop. -/
def isHanded : SeatEvent → Bool
  | handed .. => true
  | _ => false

/-- Whether a call was refused by the seat itself. -/
def isRefused : SeatEvent → Bool
  | refused _ => true
  | _ => false

/-- Whether the session ended. -/
def isEnded : SeatEvent → Bool
  | ended _ => true
  | _ => false

/-- The call that was handed to the loop. -/
def releasedCall : SeatEvent → Option ToolCall
  | released call _ => some call
  | _ => none

/-- The calls a reply asks for. -/
def askedCalls : SeatEvent → List ModelToolCall
  | replied reply => reply.toolCalls
  | _ => []

end SeatEvent

/-- The calls handed to the loop, in order. -/
def releasedCalls (log : List SeatEvent) : List ToolCall := log.filterMap SeatEvent.releasedCall

/-- The calls the replies asked for, in order. -/
def askedCalls (log : List SeatEvent) : List ModelToolCall := log.flatMap SeatEvent.askedCalls

/-- The calls answered on the spot. -/
def refusals (log : List SeatEvent) : ℕ := log.countP SeatEvent.isRefused

/-- How often, since `next` was last called. -/
def sinceAsked (kind : SeatEvent → Bool) (log : List SeatEvent) : ℕ :=
  (log.reverse.takeWhile fun event => !event.isAsked).countP kind

/-- The client is called, and before that at most this often since `next` was called. -/
def CalledWithin (limit : ℕ) (before : List SeatEvent) (event : SeatEvent) : Prop :=
  event.isHanded = true → sinceAsked SeatEvent.isHanded before ≤ limit

/-- The session has not ended yet. -/
def Unended (log : List SeatEvent) : Prop := ∀ event ∈ log, event.isEnded = false

theorem releasedCalls_snoc (log : List SeatEvent) (event : SeatEvent) :
    releasedCalls (log ++ [event]) = releasedCalls log ++ event.releasedCall.toList := by
  unfold releasedCalls
  rw [List.filterMap_append]
  cases event <;> rfl

theorem askedCalls_snoc (log : List SeatEvent) (event : SeatEvent) :
    askedCalls (log ++ [event]) = askedCalls log ++ event.askedCalls := by
  unfold askedCalls
  rw [List.flatMap_append, List.flatMap_singleton]

theorem refusals_snoc (log : List SeatEvent) (event : SeatEvent) :
    refusals (log ++ [event]) = refusals log + if event.isRefused then 1 else 0 := by
  unfold refusals
  rw [List.countP_append, List.countP_singleton]

theorem sinceAsked_snoc (kind : SeatEvent → Bool) (log : List SeatEvent) (event : SeatEvent) :
    sinceAsked kind (log ++ [event]) =
      if event.isAsked then 0 else sinceAsked kind log + if kind event then 1 else 0 := by
  unfold sinceAsked
  rw [List.reverse_append, List.reverse_singleton, List.singleton_append, List.takeWhile_cons]
  cases event.isAsked with
  | true => rfl
  | false => exact List.countP_cons

/-- What was refused since is refused at all. -/
theorem sinceAsked_le (log : List SeatEvent) : sinceAsked SeatEvent.isRefused log ≤ refusals log := by
  unfold sinceAsked refusals
  rw [← List.countP_reverse (l := log)]
  exact (List.takeWhile_sublist _).countP_le

theorem unended_snoc {log : List SeatEvent} {event : SeatEvent} (h : Unended log)
    (hevent : event.isEnded = false) : Unended (log ++ [event]) := by
  intro other hin
  rcases List.mem_append.mp hin with hold | hnew
  · exact h other hold
  · rw [List.mem_singleton.mp hnew]
    exact hevent

/-! ## Reading a queue -/

/-- The call to hand to the loop, where the arguments can be read and it is no escalation. -/
def readableCall (seat : ModelSeat) (call : ModelToolCall) : Option ToolCall :=
  match readModelToolCall seat call with
  | .toolCall call => some call
  | _ => none

/-- The well-formed calls among these, as the loop is handed them. -/
def wellFormedCalls (seat : ModelSeat) (calls : List ModelToolCall) : List ToolCall :=
  calls.filterMap (readableCall seat)

variable {seat : ModelSeat}

theorem readModelToolCall_toolCall {next : ModelToolCall} {call : ToolCall}
    (h : readModelToolCall seat next = .toolCall call) : call.id = next.id := by
  unfold readModelToolCall at h
  dsimp only at h
  split at h
  · cases h
  · split at h
    · cases h
    · rw [← ModelToolCallReading.toolCall.inj h]
      rfl

theorem readModelToolCall_malformed {next : ModelToolCall} {refusal : ToolResult}
    (h : readModelToolCall seat next = .malformed refusal) : refusal.callId = next.id := by
  unfold readModelToolCall at h
  dsimp only at h
  split at h
  · cases h
  · split at h
    · rw [← ModelToolCallReading.malformed.inj h]
    · cases h

theorem wellFormedCalls_cons (next : ModelToolCall) (rest : List ModelToolCall) :
    wellFormedCalls seat (next :: rest) =
      (readableCall seat next).toList ++ wellFormedCalls seat rest := by
  unfold wellFormedCalls
  cases hread : readableCall seat next with
  | none => exact List.filterMap_cons_none hread
  | some call => exact List.filterMap_cons_some hread

namespace ModelSession

/-! ## The invariant -/

/-- The session goes on: these ids are outstanding, and this is still to be read. -/
structure Running (seat : ModelSeat) (s : ModelSession) (ids : List JsString)
    (queue : List ModelToolCall) : Prop where
  conversing : Conversing s.messages ids
  refusals : refusals s.log = s.malformed
  withinLimit : s.malformed ≤ seat.maxMalformedCalls
  released : releasedCalls s.log ++ wellFormedCalls seat queue =
    wellFormedCalls seat (askedCalls s.log)
  unended : Unended s.log

/-- The session is over, and holds nothing back where it ended with a decision. -/
structure Ended (seat : ModelSeat) (s : ModelSession) : Prop where
  refusals : refusals s.log ≤ seat.maxMalformedCalls
  released : releasedCalls s.log <+: wellFormedCalls seat (askedCalls s.log)
  dropped : ∀ decision, SeatEvent.ended (some decision) ∈ s.log → s.pending = []
  told : ∃ decision, SeatEvent.ended decision ∈ s.log

/-- What holds of the log at any time. -/
structure Logged (seat : ModelSeat) (s : ModelSession) : Prop where
  handed : ∀ messages tools, SeatEvent.handed messages tools ∈ s.log → CallsAnswered messages
  called : WrittenUnder (CalledWithin seat.maxMalformedCalls) s.log
  stopped : WrittenUnder (fun before _ => Unended before) s.log

/-- What stands between two events, by the phase. -/
def Standing (seat : ModelSeat) (s : ModelSession) : Prop :=
  match s.phase with
  | .fresh => s.Running seat [] [] ∧ s.pending = []
  | .released call => s.Running seat (call.id :: s.pending.map ModelToolCall.id) s.pending
  | .completing => s.Running seat [] [] ∧ s.pending = [] ∧
      sinceAsked SeatEvent.isHanded s.log ≤ sinceAsked SeatEvent.isRefused s.log + 1
  | .over => s.Ended seat

/-- The invariant of a session: its log, and where it stands. -/
structure Inv (seat : ModelSeat) (s : ModelSession) : Prop where
  logged : s.Logged seat
  standing : s.Standing seat

variable {s : ModelSession} {ids : List JsString} {queue : List ModelToolCall}

theorem Logged.record (h : s.Logged seat) (hunended : Unended s.log) (event : SeatEvent)
    (hhanded : event.isHanded = false) : (s.record event).Logged seat where
  handed messages tools hin := by
    rcases List.mem_append.mp hin with hold | hnew
    · exact h.handed messages tools hold
    · rw [← List.mem_singleton.mp hnew] at hhanded
      cases hhanded
  called := writtenUnder_snoc.mpr ⟨h.called, fun hnew => absurd (hhanded.symm.trans hnew) nofun⟩
  stopped := writtenUnder_snoc.mpr ⟨h.stopped, hunended⟩

theorem Logged.same {s' : ModelSession} (h : s.Logged seat) (hlog : s'.log = s.log) :
    s'.Logged seat where
  handed := hlog ▸ h.handed
  called := hlog ▸ h.called
  stopped := hlog ▸ h.stopped

/-- An end is written once, and nothing is handed out after it. -/
theorem finish_inv {s' : ModelSession} (h : s.Running seat ids queue) (hlogged : s.Logged seat)
    (hlog : s'.log = s.log) (decision : Option AgentTurnCandidate)
    (hpending : decision.isSome → s'.pending = []) : (s'.finish decision).Inv seat := by
  have hunended : Unended s'.log := hlog ▸ h.unended
  have hrecorded := (hlogged.same hlog).record hunended (.ended decision) rfl
  refine ⟨hrecorded.same rfl, ?_, ?_, ?_, ⟨decision, List.mem_append_right _ List.mem_cons_self⟩⟩
  · show refusals (s'.log ++ [.ended decision]) ≤ _
    rw [refusals_snoc, hlog]
    exact h.refusals.trans_le h.withinLimit
  · show releasedCalls (s'.log ++ [.ended decision]) <+:
      wellFormedCalls seat (askedCalls (s'.log ++ [.ended decision]))
    rw [releasedCalls_snoc, askedCalls_snoc, hlog]
    show _ ++ [] <+: wellFormedCalls seat (_ ++ [])
    rw [List.append_nil, List.append_nil]
    exact ⟨_, h.released⟩
  · intro other hin
    rcases List.mem_append.mp hin with hold | hnew
    · cases hunended _ hold
    · rw [← SeatEvent.ended.inj (List.mem_singleton.mp hnew)] at hpending
      exact hpending rfl

theorem readableCall_toolCall {next : ModelToolCall} {call : ToolCall}
    (h : readModelToolCall seat next = .toolCall call) : readableCall seat next = some call := by
  unfold readableCall
  rw [h]

/-! ## Stretches of a turn -/

/-- The first call of the queue goes to the loop, and is outstanding until its result comes. -/
theorem releaseCall_inv {next : ModelToolCall} {rest : List ModelToolCall} {call : ToolCall}
    (h : s.Running seat (next.id :: rest.map ModelToolCall.id) (next :: rest))
    (hlogged : s.Logged seat) (hread : readModelToolCall seat next = .toolCall call) :
    (releaseCall seat { s with pending := rest } call).Inv seat := by
  have hreleased : (releasedCalls s.log ++ [call]) ++ wellFormedCalls seat rest =
      wellFormedCalls seat (askedCalls s.log) := by
    rw [← h.released, wellFormedCalls_cons, readableCall_toolCall hread, List.append_assoc]
    rfl
  unfold releaseCall
  dsimp only
  split
  · refine finish_inv h hlogged ?_ none nofun
    rfl
  · next step _ =>
      have hrecorded := hlogged.record h.unended (.released call step) rfl
      refine ⟨hrecorded.same rfl, ?_, ?_, h.withinLimit, ?_, ?_⟩
      · rw [readModelToolCall_toolCall hread]
        exact h.conversing
      · show refusals (s.log ++ [.released call step]) = s.malformed
        rw [refusals_snoc]
        exact h.refusals
      · show releasedCalls (s.log ++ [.released call step]) ++ wellFormedCalls seat rest =
          wellFormedCalls seat (askedCalls (s.log ++ [.released call step]))
        rw [releasedCalls_snoc, askedCalls_snoc]
        show (releasedCalls s.log ++ [call]) ++ _ = wellFormedCalls seat (_ ++ [])
        rw [hreleased, List.append_nil]
      · exact unended_snoc h.unended rfl

/-- Nothing is outstanding, and the client is called. -/
theorem handed_inv (h : s.Running seat [] []) (hlogged : s.Logged seat)
    (hcount : sinceAsked SeatEvent.isHanded s.log ≤ sinceAsked SeatEvent.isRefused s.log) :
    ({ s.record (.handed s.messages seat.tools) with pending := [], phase := .completing } :
      ModelSession).Inv seat := by
  have hwithin : sinceAsked SeatEvent.isHanded s.log ≤ seat.maxMalformedCalls :=
    (hcount.trans (sinceAsked_le s.log)).trans (h.refusals.trans_le h.withinLimit)
  refine ⟨⟨?_, ?_, ?_⟩, ⟨h.conversing, ?_, h.withinLimit, ?_, ?_⟩, rfl, ?_⟩
  · intro messages tools hin
    rcases List.mem_append.mp hin with hold | hnew
    · exact hlogged.handed messages tools hold
    · obtain ⟨rfl, -⟩ := SeatEvent.handed.inj (List.mem_singleton.mp hnew)
      exact h.conversing.callsAnswered
  · exact writtenUnder_snoc.mpr ⟨hlogged.called, fun _ => hwithin⟩
  · exact writtenUnder_snoc.mpr ⟨hlogged.stopped, h.unended⟩
  · show refusals (s.log ++ [_]) = s.malformed
    rw [refusals_snoc]
    exact h.refusals
  · show releasedCalls (s.log ++ [_]) ++ [] = wellFormedCalls seat (askedCalls (s.log ++ [_]))
    rw [releasedCalls_snoc, askedCalls_snoc]
    show (releasedCalls s.log ++ []) ++ [] = wellFormedCalls seat (askedCalls s.log ++ [])
    rw [List.append_nil, List.append_nil (askedCalls s.log), ← h.released]
    rfl
  · exact unended_snoc h.unended rfl
  · show sinceAsked _ (s.log ++ [_]) ≤ sinceAsked _ (s.log ++ [_]) + 1
    rw [sinceAsked_snoc, sinceAsked_snoc]
    show sinceAsked _ s.log + 1 ≤ sinceAsked _ s.log + 0 + 1
    omega

variable [HostPlatform]

/-- A call that cannot be read is answered on the spot. -/
theorem refused_running {next : ModelToolCall} {rest : List ModelToolCall} {refusal : ToolResult}
    (h : s.Running seat (next.id :: rest.map ModelToolCall.id) (next :: rest))
    (hread : readModelToolCall seat next = .malformed refusal)
    (hlimit : s.malformed + 1 ≤ seat.maxMalformedCalls) :
    ((({ s with malformed := s.malformed + 1 } : ModelSession).push
      (modelToolResultMessage refusal)).record (.refused next)).Running seat
        (rest.map ModelToolCall.id) rest := by
  refine ⟨?_, ?_, hlimit, ?_, unended_snoc h.unended rfl⟩
  · show Conversing (s.messages ++ [.tool refusal.callId _]) _
    rw [readModelToolCall_malformed hread]
    exact .answer _ h.conversing
  · show refusals (s.log ++ [_]) = s.malformed + 1
    rw [refusals_snoc, h.refusals]
    rfl
  · have hunread : readableCall seat next = none := by
      unfold readableCall
      rw [hread]
    have hreleased := h.released
    rw [wellFormedCalls_cons, hunread] at hreleased
    show releasedCalls (s.log ++ [_]) ++ _ = wellFormedCalls seat (askedCalls (s.log ++ [_]))
    rw [releasedCalls_snoc, askedCalls_snoc]
    show (releasedCalls s.log ++ []) ++ _ = wellFormedCalls seat (_ ++ [])
    rw [List.append_nil, List.append_nil]
    exact hreleased

/-- The queue is read as far as the next decision or the next call of the client. Whenever the client
is called again, a call has been refused since. -/
theorem releaseFrom_inv (h : s.Running seat (queue.map ModelToolCall.id) queue)
    (hlogged : s.Logged seat)
    (hcount : sinceAsked SeatEvent.isHanded s.log ≤ sinceAsked SeatEvent.isRefused s.log + 1)
    (hempty : queue = [] →
      sinceAsked SeatEvent.isHanded s.log ≤ sinceAsked SeatEvent.isRefused s.log) :
    (s.releaseFrom seat queue).Inv seat := by
  induction queue generalizing s with
  | nil => exact handed_inv h hlogged (hempty rfl)
  | cons next rest ih =>
      unfold releaseFrom
      cases hread : readModelToolCall seat next with
      | escalate reason =>
          refine finish_inv h hlogged ?_ _ fun _ => ?_
          · rfl
          · rfl
      | toolCall call => exact releaseCall_inv h hlogged hread
      | malformed refusal =>
          dsimp only
          split
          · refine finish_inv h hlogged ?_ _ fun _ => ?_
            · rfl
            · rfl
          · next hlimit =>
              have hsince : ∀ kind : SeatEvent → Bool, sinceAsked kind (s.log ++ [.refused next]) =
                  sinceAsked kind s.log + if kind (.refused next) then 1 else 0 := by
                intro kind
                rw [sinceAsked_snoc]
                rfl
              have hrefused : sinceAsked SeatEvent.isHanded (s.log ++ [.refused next]) ≤
                  sinceAsked SeatEvent.isRefused (s.log ++ [.refused next]) := by
                rw [hsince, hsince]
                exact hcount
              have hrecorded := hlogged.record h.unended (.refused next) rfl
              refine ih (refused_running h hread (Nat.le_of_not_lt hlimit))
                (hrecorded.same rfl) ?_ fun _ => hrefused
              exact hrefused.trans (Nat.le_succ _)

/-! ## Steps -/

omit [HostPlatform] in
/-- `next` is called: the counts of what it does start over. -/
theorem asked_running (h : s.Running seat ids queue) :
    (s.record .asked).Running seat ids queue := by
  refine ⟨h.conversing, ?_, h.withinLimit, ?_, unended_snoc h.unended rfl⟩
  · show refusals (s.log ++ [.asked]) = s.malformed
    rw [refusals_snoc]
    exact h.refusals
  · show releasedCalls (s.log ++ [.asked]) ++ _ = wellFormedCalls seat (askedCalls (s.log ++ [.asked]))
    rw [releasedCalls_snoc, askedCalls_snoc]
    show (releasedCalls s.log ++ []) ++ _ = wellFormedCalls seat (_ ++ [])
    rw [List.append_nil, List.append_nil]
    exact h.released

theorem next_inv (h : s.Inv seat) {input : AgentTurnInput} {s' : ModelSession}
    (hnext : s.next seat input = some s') : s'.Inv seat := by
  have hstanding := h.standing
  unfold Standing at hstanding
  have hzero : ∀ kind, sinceAsked kind (s.log ++ [.asked]) = 0 := by
    intro kind
    rw [sinceAsked_snoc]
    rfl
  have hcount : sinceAsked SeatEvent.isHanded (s.log ++ [.asked]) ≤
      sinceAsked SeatEvent.isRefused (s.log ++ [.asked]) := by
    rw [hzero, hzero]
  cases input with
  | start =>
      simp only [next] at hnext
      split at hnext
      · next hphase =>
          rw [hphase] at hstanding
          obtain ⟨hrun, hpending⟩ := hstanding
          have hlogged := h.logged.record hrun.unended .asked rfl
          rw [← Option.some.inj hnext]
          unfold release
          rw [show (s.record .asked).pending = [] from hpending]
          exact releaseFrom_inv (asked_running hrun) hlogged (hcount.trans (Nat.le_succ _))
            fun _ => hcount
      · cases hnext
  | toolResult result =>
      simp only [next] at hnext
      split at hnext
      · next call hphase =>
          rw [hphase] at hstanding
          have hlogged := h.logged.record hstanding.unended .asked rfl
          have hasked := asked_running hstanding
          split at hnext
          · next hid =>
              rw [← Option.some.inj hnext]
              -- the result answers the call that was outstanding
              have hanswered : Conversing ((s.record .asked).push
                  (modelToolResultMessage result)).messages (s.pending.map ModelToolCall.id) := by
                show Conversing (s.messages ++ [.tool result.callId _]) _
                rw [hid]
                exact .answer _ hstanding.conversing
              exact releaseFrom_inv ⟨hanswered, hasked.refusals, hasked.withinLimit,
                hasked.released, hasked.unended⟩ (hlogged.same rfl) (hcount.trans (Nat.le_succ _))
                fun _ => hcount
          · cases hnext
      · cases hnext

omit [HostPlatform] in
/-- The calls of a reply are still to be read. -/
theorem replied_running (h : s.Running seat [] []) (reply : ModelReply) :
    ((s.record (.replied reply)).account reply).Running seat [] reply.toolCalls := by
  refine ⟨h.conversing, ?_, h.withinLimit, ?_, unended_snoc h.unended rfl⟩
  · show refusals (s.log ++ [.replied reply]) = s.malformed
    rw [refusals_snoc]
    exact h.refusals
  · have hreleased : releasedCalls s.log ++ [] = wellFormedCalls seat (askedCalls s.log) := h.released
    show releasedCalls (s.log ++ [.replied reply]) ++ _ =
      wellFormedCalls seat (askedCalls (s.log ++ [.replied reply]))
    rw [releasedCalls_snoc, askedCalls_snoc]
    show (releasedCalls s.log ++ []) ++ wellFormedCalls seat reply.toolCalls =
      wellFormedCalls seat (askedCalls s.log ++ reply.toolCalls)
    rw [hreleased]
    exact (List.filterMap_append ..).symm

theorem replied_inv (h : s.Inv seat) (hphase : s.phase = .completing) (reply : ModelReply) :
    (s.replied seat reply).Inv seat := by
  have hstanding := h.standing
  unfold Standing at hstanding
  rw [hphase] at hstanding
  obtain ⟨hrun, hpending, hcount⟩ := hstanding
  have hreplied := replied_running hrun reply
  have hlogged := h.logged.record hrun.unended (.replied reply) rfl
  have haccounted : ((s.record (.replied reply)).account reply).Logged seat := hlogged.same rfl
  unfold replied
  dsimp only
  split
  · exact finish_inv hreplied haccounted rfl _ fun _ => hpending
  · have hasked : Conversing (s.messages ++ [.assistant reply.text reply.toolCalls])
        (reply.toolCalls.map ModelToolCall.id) := .reply _ _ hreplied.conversing
    split
    · refine finish_inv hreplied haccounted ?_ _ fun _ => hpending
      rfl
    · next hcalls =>
        have hsince : ∀ kind : SeatEvent → Bool, sinceAsked kind (s.log ++ [.replied reply]) =
            sinceAsked kind s.log + if kind (.replied reply) then 1 else 0 := by
          intro kind
          rw [sinceAsked_snoc]
          rfl
        have hqueue : s.pending ++ reply.toolCalls = reply.toolCalls := by
          rw [hpending, List.nil_append]
        unfold release
        show Inv seat (releaseFrom seat _ (s.pending ++ reply.toolCalls))
        rw [hqueue]
        refine releaseFrom_inv ⟨hasked, hreplied.refusals, hreplied.withinLimit, hreplied.released,
          hreplied.unended⟩ (haccounted.same rfl) ?_ fun hnil => absurd hnil hcalls
        show sinceAsked _ (s.log ++ [.replied reply]) ≤ sinceAsked _ (s.log ++ [.replied reply]) + 1
        rw [hsince, hsince]
        exact hcount

omit [HostPlatform] in
theorem clientThrew_inv (h : s.Inv seat) (hphase : s.phase = .completing) (aborted : Bool)
    (description : JsString) : (s.clientThrew seat aborted description).Inv seat := by
  have hstanding := h.standing
  unfold Standing at hstanding
  rw [hphase] at hstanding
  obtain ⟨hrun, hpending, -⟩ := hstanding
  unfold clientThrew
  split
  · exact finish_inv hrun h.logged rfl none nofun
  · exact finish_inv hrun h.logged rfl _ fun _ => hpending

/-- **Every step keeps the invariant.** -/
theorem inv_step (s : ModelSession) (label : SeatLabel) (s' : ModelSession) (h : s.Inv seat)
    (hstep : seatStep seat s label = some s') : s'.Inv seat := by
  cases label with
  | next input => exact next_inv h hstep
  | replies reply =>
      simp only [seatStep] at hstep
      split at hstep
      · next hphase =>
          rw [← Option.some.inj hstep]
          exact replied_inv h hphase reply
      · cases hstep
  | clientThrows aborted description =>
      simp only [seatStep] at hstep
      split at hstep
      · next hphase =>
          rw [← Option.some.inj hstep]
          exact clientThrew_inv h hphase aborted description
      · cases hstep

omit [HostPlatform] in
theorem inv_create (seat : ModelSeat) : (create seat).Inv seat := by
  refine ⟨⟨nofun, writtenUnder_nil, writtenUnder_nil⟩, ⟨.opening ?_, rfl, Nat.zero_le _, rfl, nofun⟩,
    rfl⟩
  intro message hin
  rcases List.mem_append.mp hin with hsystem | huser
  · obtain ⟨text, -, rfl⟩ := Option.map_eq_some_iff.mp (Option.mem_toList.mp hsystem)
    exact ⟨rfl, rfl⟩
  · rw [List.mem_singleton.mp huser]
    exact ⟨rfl, rfl⟩

/-! ## How long one `next` takes -/

/-- Where the client is called again, every call of the queue has been refused. -/
theorem releaseFrom_completing (h : (s.releaseFrom seat queue).phase = .completing) :
    (s.releaseFrom seat queue).malformed = s.malformed + queue.length := by
  induction queue generalizing s with
  | nil => rfl
  | cons next rest ih =>
      unfold releaseFrom at h ⊢
      cases hread : readModelToolCall seat next with
      | escalate reason =>
          rw [hread] at h
          cases h
      | toolCall call =>
          rw [hread] at h
          dsimp only at h
          unfold releaseCall at h
          dsimp only at h
          split at h
          · cases h
          · cases h
      | malformed refusal =>
          rw [hread] at h
          dsimp only at h ⊢
          by_cases hlimit : seat.maxMalformedCalls < s.malformed + 1
          · rw [if_pos hlimit] at h
            cases h
          · rw [if_neg hlimit] at h ⊢
            rw [ih h, List.length_cons]
            show s.malformed + 1 + rest.length = s.malformed + (rest.length + 1)
            omega

theorem replied_completing {reply : ModelReply} (hpending : s.pending = [])
    (h : (s.replied seat reply).phase = .completing) :
    s.malformed < (s.replied seat reply).malformed := by
  unfold replied at h ⊢
  dsimp only at h ⊢
  by_cases hlength : reply.finishReason = some "length"
  · rw [if_pos hlength] at h
    cases h
  · rw [if_neg hlength] at h ⊢
    by_cases hcalls : reply.toolCalls = []
    · rw [if_pos hcalls] at h
      cases h
    · rw [if_neg hcalls] at h ⊢
      unfold release at h ⊢
      rw [releaseFrom_completing h]
      show s.malformed < s.malformed + (s.pending ++ reply.toolCalls).length
      rw [hpending, List.nil_append]
      exact Nat.lt_add_of_pos_right (List.length_pos_iff.mpr hcalls)

/-- The replies one `next` waits for are fewer than the calls it may still refuse, and one more. -/
theorem replies_length {replies : List ModelReply} {s' : ModelSession} (h : s.Inv seat)
    (hrun : run (seatStep seat) s (replies.map .replies) = some s') :
    replies.length ≤ seat.maxMalformedCalls - s.malformed + 1 := by
  induction replies generalizing s with
  | nil => exact Nat.zero_le _
  | cons reply rest ih =>
      rw [List.map_cons] at hrun
      obtain ⟨s₁, hreply, hrest⟩ := run_cons.mp hrun
      have hinv := inv_step s (.replies reply) s₁ h hreply
      obtain ⟨hphase, rfl⟩ : s.phase = .completing ∧ s.replied seat reply = s₁ := by
        simp only [seatStep] at hreply
        split at hreply
        · next hphase => exact ⟨hphase, Option.some.inj hreply⟩
        · cases hreply
      have hlength := ih hinv hrest
      have hpending : s.pending = [] := by
        have hstanding := h.standing
        unfold Standing at hstanding
        rw [hphase] at hstanding
        exact hstanding.2.1
      cases rest with
      | nil => exact Nat.le_add_left 1 _
      | cons another others =>
          -- a reply that is waited for after this one finds the client called again
          have hagain : (s.replied seat reply).phase = .completing := by
            rw [List.map_cons] at hrest
            obtain ⟨_, hanother, -⟩ := run_cons.mp hrest
            simp only [seatStep] at hanother
            split at hanother
            · next hphase' => exact hphase'
            · cases hanother
          have hmore := replied_completing hpending hagain
          have hlimit : (s.replied seat reply).malformed ≤ seat.maxMalformedCalls := by
            have hstanding := hinv.standing
            unfold Standing at hstanding
            rw [hagain] at hstanding
            exact hstanding.1.withinLimit
          rw [List.length_cons]
          omega

/-! ## The conversation of a turn -/

/-- What a turn's conversation is, at any moment of it. -/
structure ConversationKept (seat : ModelSeat) (s : ModelSession) : Prop where
  /-- Whenever the client is called, every call of every reply has been answered. -/
  answered : ∀ messages tools, SeatEvent.handed messages tools ∈ s.log → CallsAnswered messages
  /-- When one `next` calls the client it has called it at most `maxMalformedCalls` times before, -/
  called : WrittenUnder (CalledWithin seat.maxMalformedCalls) s.log
  /-- and it has returned when that many replies and one more have come. -/
  returns : ∀ (replies : List ModelReply) (s' : ModelSession),
    run (seatStep seat) s (replies.map .replies) = some s' →
      replies.length ≤ seat.maxMalformedCalls + 1
  refusals : refusals s.log ≤ seat.maxMalformedCalls
  /-- The well-formed calls are released in order, none twice and none left out on the way. -/
  released : releasedCalls s.log <+: wellFormedCalls seat (askedCalls s.log)
  /-- Until the session ends, those not released yet are the ones that are queued. -/
  queued : Unended s.log → releasedCalls s.log ++ wellFormedCalls seat s.pending =
    wellFormedCalls seat (askedCalls s.log)
  /-- Nothing is released, or done at all, after the session has ended, -/
  stopped : WrittenUnder (fun before _ => Unended before) s.log
  /-- and after a decision that ended it nothing is queued. -/
  dropped : ∀ decision, SeatEvent.ended (some decision) ∈ s.log → s.pending = []

theorem Inv.conversationKept (h : s.Inv seat) : s.ConversationKept seat := by
  have hreturns : ∀ (replies : List ModelReply) (s' : ModelSession),
      run (seatStep seat) s (replies.map .replies) = some s' →
        replies.length ≤ seat.maxMalformedCalls + 1 := by
    intro replies s' hrun
    have hlength := replies_length h hrun
    omega
  have hrunning : ∀ {ids}, s.Running seat ids s.pending → s.ConversationKept seat := fun hrun =>
    ⟨h.logged.handed, h.logged.called, hreturns, hrun.refusals.trans_le hrun.withinLimit,
      ⟨_, hrun.released⟩, fun _ => hrun.released, h.logged.stopped,
      fun _ hin => absurd (hrun.unended _ hin) nofun⟩
  have hstanding := h.standing
  unfold Standing at hstanding
  split at hstanding
  · exact hrunning (hstanding.2 ▸ hstanding.1)
  · exact hrunning hstanding
  · exact hrunning (hstanding.2.1 ▸ hstanding.1)
  · obtain ⟨decision, htold⟩ := hstanding.told
    exact ⟨h.logged.handed, h.logged.called, hreturns, hstanding.refusals, hstanding.released,
      fun hunended => absurd (hunended _ htold) nofun, h.logged.stopped, hstanding.dropped⟩

/-- Whatever the model replies, and whatever answers the calls it is released, its conversation is
kept so. -/
theorem conversation_kept (seat : ModelSeat) (labels : List SeatLabel) (s : ModelSession)
    (h : run (seatStep seat) (create seat) labels = some s) : s.ConversationKept seat :=
  (run_invariant inv_step (inv_create seat) h).conversationKept

end ModelSession

/-! ## A reply with a call that cannot be read -/

namespace Sample

/-- A seat with one tool. -/
def modelSeat : ModelSeat where
  parse _ := none
  client := { model := "m", provider := "p", settings := none }
  codec := { names := [("files_read", "files.read")] }
  tools := []
  offered := true
  traceId := "trace"
  now := "2026-03-01T00:00:00Z"
  text := { instructions := none, prompt := "Read the report." }
  declareStep := none
  maxMalformedCalls := 8

/-- One reply asks for two calls, of which the first cannot be read. The second one is answered. -/
def twoCalls : List SeatLabel :=
  [.next .start,
    .replies
      { text := "", toolCalls :=
        [{ id := "call_1", name := "files_read", arguments := "[" },
          { id := "call_2", name := "files_read", arguments := "" }] },
    .next (.toolResult
      { callId := "call_2", tool := "files.read", completedAt := "2026-03-01T00:00:01Z"
        outcome := .succeeded .null, metadata := none })]

end Sample

open scoped SharedOS.Foundation.Reference in
theorem conversation_kept_twoCalls :
    ∃ s, run (seatStep Sample.modelSeat) (.create Sample.modelSeat) Sample.twoCalls = some s ∧
      (releasedCalls s.log).map ToolCall.id = (["call_2"] : List JsString) ∧ refusals s.log = 1 ∧
      s.ConversationKept Sample.modelSeat :=
  ⟨_, rfl, rfl, rfl,
    ModelSession.conversation_kept Sample.modelSeat Sample.twoCalls _ rfl⟩

end SharedOS.Adapters
