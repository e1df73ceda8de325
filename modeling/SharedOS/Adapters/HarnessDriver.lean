/-
SharedOS.Adapters.HarnessDriver — one vendor's wire format in the seat of the standard loop.

A call of `next` hands over the result the loop answers with, if there is one, and then takes the
steps of the frames the harness sends, one at a time and in order, until a step decides. Prose is kept
and decides nothing. A frame may carry several steps, and what is left of it waits for a later call.
A guard bounds the frames one call reads.
-/
import SharedOS.Adapters.Protocols
import SharedOS.Adapters.ModelDriver

namespace SharedOS.Adapters

open SharedOS.Foundation SharedOS.Contracts SharedOS.Mcp SharedOS.Runtime

/-! ## A channel -/

/-- What one read of a channel comes to. -/
inductive ChannelRead where
  | frame (frame : Json)
  /-- The harness has finished speaking. -/
  | ended
  | threw

/-- One open turn of a harness, as it behaves in this run: what each read and each write comes to. -/
structure HarnessChannel where
  read : ℕ → ChannelRead
  /-- Whether the write went through. -/
  write : ℕ → Bool

/-- The part of `HarnessProtocol` a session reads. -/
structure HarnessProtocol where
  interpret : Json → List HarnessStep
  encodeToolResult : ToolResult → Json

/-! ## The driver -/

/-- A driver: the harness's protocol, and how many frames in a row may say nothing. -/
structure EvalHarnessDriver where
  protocol : HarnessProtocol
  maxIgnoredFrames : ℕ
  declareStep : Option (ℕ → Except Unit (Option JsNumber))
  positive : 0 < maxIgnoredFrames

/-- `DEFAULT_MAX_IGNORED_FRAMES`. -/
def defaultMaxIgnoredFrames : ℕ := 512

/-- The constructor, which throws where the guard is no positive integer. -/
def EvalHarnessDriver.create (protocol : HarnessProtocol) (maxIgnoredFrames : Option JsNumber)
    (declareStep : Option (ℕ → Except Unit (Option JsNumber))) : Option EvalHarnessDriver :=
  let stated := maxIgnoredFrames.elim (some defaultMaxIgnoredFrames) declaredStep
  stated.bind fun n =>
    if positive : 0 < n then some { protocol, maxIgnoredFrames := n, declareStep, positive } else none

/-- What a turn's session is opened with. -/
structure HarnessSeat extends EvalHarnessDriver where
  channel : HarnessChannel
  /-- Whether the turn's catalogue offers the escalate affordance. -/
  offered : Bool
  traceId : JsString
  now : JsString

/-! ## The session -/

/-- What a call of `next` comes to, and why it failed where it did. -/
inductive NextAnswer where
  /-- A step decided. -/
  | decided (decision : AgentTurnCandidate)
  /-- The harness stopped speaking. -/
  | harnessEnded
  | frameLimit
  | threw

/-- The decision `next` returns, if it returns. -/
def NextAnswer.decision : NextAnswer → Option AgentTurnCandidate
  | decided decision => some decision
  | harnessEnded => some (.fail
      { code := "harness_ended_without_outcome"
        message := .text "The harness stopped speaking without completing the turn." } none)
  | frameLimit => some (.fail
      { code := "harness_frame_limit_exceeded"
        message := .text "The harness emitted too many frames without producing an outcome." } none)
  | threw => none

/-- What the session did, in order, and what it was told. -/
inductive HarnessEvent where
  /-- `next` was called. -/
  | asked
  /-- A result was written to the channel. -/
  | wrote (frame : Json)
  | read (read : ChannelRead)
  /-- A step left the queue. -/
  | took (step : HarnessStep)
  | answered (answer : NextAnswer)

/-- The session of one turn: the steps read and not consumed, and what it did. -/
structure HarnessSession where
  /-- Steps a frame produced but the turn has not consumed yet. -/
  pending : List HarnessStep
  messages : List JsString
  /-- Calls released to the loop this turn. -/
  released : ℕ
  reads : ℕ
  writes : ℕ
  finished : Bool
  log : List HarnessEvent

namespace HarnessSession

/-- A session before its first frame. -/
def create : HarnessSession where
  pending := []
  messages := []
  released := 0
  reads := 0
  writes := 0
  finished := false
  log := []

/-- One event more in the log. -/
def record (s : HarnessSession) (event : HarnessEvent) : HarnessSession :=
  { s with log := s.log ++ [event] }

end HarnessSession

/-- The loop goes on from this answer. -/
def NextAnswer.goesOn : NextAnswer → Bool
  | decided (.toolCall ..) => true
  | _ => false

/-- A call, as the seat makes it. -/
def HarnessSeat.toolCall (seat : HarnessSeat) (id tool : JsString) (arguments : Json) : ToolCall where
  id := id
  tool := tool
  arguments := arguments
  traceId := seat.traceId
  requestedAt := seat.now

/-- `messages.join("\n")`. -/
def joinLines : List JsString → JsString
  | [] => []
  | [text] => text
  | text :: rest => text ++ 0x0A :: joinLines rest

/-- `SeatCalls.release`, of a call with so many before it. The step it is declared at may throw. -/
def HarnessSeat.release (seat : HarnessSeat) (released : ℕ) (call : ToolCall) : NextAnswer :=
  match seat.declareStep.elim (.ok none) fun declare => declare released with
  | .error _ => .threw
  | .ok step => .decided (.toolCall call step)

/-- `step.output ?? { text: messages.join("\n") }` -/
def outputOr (messages : List JsString) : Option Json → Json
  | none | some .null => textOutput (joinLines messages)
  | some output => output

/-- What a step decides, with this prose kept and so many calls released. -/
def HarnessSeat.answerTo (seat : HarnessSeat) (messages : List JsString) (released : ℕ) :
    HarnessStep → Option NextAnswer
  | .message _ => none
  | .failed error => some (.decided (.fail error none))
  | .complete output metadata =>
    some (.decided (.complete (outputOr messages output) metadata))
  | .toolCall callId tool arguments =>
    match askedToEscalate seat.offered tool (some arguments) with
    | some reason => some (.decided (.escalate reason none))
    | none => some (seat.release released (seat.toolCall callId tool arguments))

namespace HarnessSession

/-- The step leaves the queue. Prose is kept, and a call that is released is counted. -/
def take (seat : HarnessSeat) (s : HarnessSession) (step : HarnessStep) (rest : List HarnessStep) :
    HarnessSession :=
  let s := { s.record (.took step) with pending := rest }
  match step with
  | .message text => { s with messages := s.messages ++ [text] }
  | .toolCall _ tool arguments =>
    if (askedToEscalate seat.offered tool (some arguments)).isSome then s
    else { s with released := s.released + 1 }
  | .failed _ | .complete .. => s

/-- `#drainPending`, from the steps that are queued. -/
def drainFrom (seat : HarnessSeat) (s : HarnessSession) :
    List HarnessStep → Option NextAnswer × HarnessSession
  | [] => (none, { s with pending := [] })
  | step :: rest =>
    match seat.answerTo s.messages s.released step with
    | some answer => (some answer, s.take seat step rest)
    | none => (s.take seat step rest).drainFrom seat rest

/-- `#drainPending`: the steps of the last frame, before another is read. -/
def drainPending (seat : HarnessSeat) (s : HarnessSession) : Option NextAnswer × HarnessSession :=
  s.drainFrom seat s.pending

/-- The loop of `next`, with so many rounds left. -/
def readOn (seat : HarnessSeat) : ℕ → HarnessSession → NextAnswer × HarnessSession
  | 0, s => (.frameLimit, s)
  | left + 1, s =>
    match s.drainPending seat with
    | (some answer, s) => (answer, s)
    | (none, s) =>
      let read := seat.channel.read s.reads
      let s := { s.record (.read read) with reads := s.reads + 1 }
      match read with
      | .frame frame =>
        readOn seat left { s with pending := s.pending ++ seat.protocol.interpret frame }
      | .ended => (.harnessEnded, s)
      | .threw => (.threw, s)

/-- `next`. -/
def next (seat : HarnessSeat) (s : HarnessSession) (input : AgentTurnInput) :
    NextAnswer × HarnessSession :=
  match input with
  | .start => s.readOn seat (seat.maxIgnoredFrames + 1)
  | .toolResult result =>
    let written := { s.record (.wrote (seat.protocol.encodeToolResult result)) with
      writes := s.writes + 1 }
    if seat.channel.write s.writes then written.readOn seat (seat.maxIgnoredFrames + 1)
    else (.threw, written)

/-- A call of `next`, as it is logged. -/
def call (seat : HarnessSeat) (s : HarnessSession) (input : AgentTurnInput) :
    NextAnswer × HarnessSession :=
  (s.record .asked).next seat input

end HarnessSession

/-- One call of `next`. The loop makes no other after a decision that ends the turn. -/
def harnessStep (seat : HarnessSeat) (s : HarnessSession) (input : AgentTurnInput) :
    Option HarnessSession :=
  if s.finished then none
  else
    let (answer, s) := s.call seat input
    some { s.record (.answered answer) with finished := !answer.goesOn }

end SharedOS.Adapters
