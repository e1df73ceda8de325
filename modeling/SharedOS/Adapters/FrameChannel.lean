/-
SharedOS.Adapters.FrameChannel — the frames of a harness that runs as a process of its own.

The process writes lines. A line that is a JSON object is a frame, a line that is no JSON is kept for
diagnosis, and the rest is passed by. Frames are pushed as they come and pulled as the driver reads
them, so between the two stands a queue, and its end is told by any of three: the output ended, the
process exited, the channel was closed.

`frames_delivered` is what the driver may rely on, whatever the order of these: no frame is lost but to
a read that was given up while it waited, none comes twice or before an earlier one, and the end of
frames is told only when every frame before it has been read.
-/
import SharedOS.Adapters.Harness
import SharedOS.Foundation.JsonText
import SharedOS.Foundation.PullQueue

namespace SharedOS.Adapters

open SharedOS.Foundation

/-! ## Lines -/

/-- What a line of a harness's output is. -/
inductive HarnessLine where
  | frame (value : Json)
  | diagnostic (text : JsString)
  /-- A blank line, or JSON that is no object. -/
  | ignored

/-- What the channel takes a line for. -/
def readLine (line : JsString) : HarnessLine :=
  if trim line = [] then .ignored
  else
    match jsonParse (trim line) with
    | none => .diagnostic (trim line)
    | some (.obj entries) => .frame (.obj entries)
    | some _ => .ignored

/-- The frame of a line that has one. -/
def HarnessLine.frame? : HarnessLine → Option Json
  | .frame value => some value
  | _ => none

/-! ## The channel -/

/-- What may happen to a channel next. -/
inductive ChannelEvent where
  /-- The process wrote a line. -/
  | line (text : JsString)
  | outputEnd
  | exited
  | closed
  /-- The driver reads, under a signal. -/
  | read (signal : ℕ)
  | abort (signal : ℕ)

/-- What an event does to the queue of frames. -/
def ChannelEvent.action : ChannelEvent → Option (QueueAction Json)
  | .line text => (readLine text).frame?.map .push
  | .outputEnd | .exited | .closed => some .close
  | .read signal => some (.read signal)
  | .abort signal => some (.abort signal)

/-- `ChildProcessChannel`, after what happened to it. -/
def childProcessChannel (events : List ChannelEvent) : PullQueue Json :=
  PullQueue.empty.after (events.filterMap ChannelEvent.action)

/-- The frame an event brings. -/
def ChannelEvent.frame? : ChannelEvent → Option Json
  | .line text => (readLine text).frame?
  | _ => none

/-- The frames the process wrote, in order. -/
def framesWritten (events : List ChannelEvent) : List Json := events.filterMap ChannelEvent.frame?

/-- The frames that left the channel, each with the read it was handed to. -/
def framesHanded (events : List ChannelEvent) : List (ℕ × Json) :=
  PullQueue.handed PullQueue.empty (events.filterMap ChannelEvent.action)

theorem pushed_actions (events : List ChannelEvent) :
    PullQueue.pushed (events.filterMap ChannelEvent.action) = framesWritten events := by
  unfold PullQueue.pushed framesWritten
  rw [List.filterMap_filterMap]
  congr 1
  funext event
  cases event with
  | line text =>
      cases h : (readLine text).frame? with
      | none => simp [ChannelEvent.action, ChannelEvent.frame?, h]
      | some frame => simp [ChannelEvent.action, ChannelEvent.frame?, PullQueue.pushedBy, h]
  | _ => rfl

/-- The queue has kept its account. -/
theorem channel_kept (events : List ChannelEvent) :
    PullQueue.Kept (childProcessChannel events) (framesWritten events) (framesHanded events) := by
  have hkept := PullQueue.kept_empty.after (events.filterMap ChannelEvent.action)
  rw [List.nil_append, List.nil_append, pushed_actions] at hkept
  exact hkept

/-- What holds of the reads and the frames of a channel after these events. -/
structure Delivered (events : List ChannelEvent) : Prop where
  /-- Every frame written was handed to a read, or is still to be read: in the order written, once. -/
  written : framesWritten events =
    (framesHanded events).map Prod.snd ++ (childProcessChannel events).buffered
  /-- The reads they were handed to are in the order they were made. -/
  inOrder : ((framesHanded events).map Prod.fst).Pairwise (· < ·)
  /-- A read has the frame it was handed, unless its signal was raised while it waited. -/
  received : ∀ i frame, (i, frame) ∈ framesHanded events →
    (childProcessChannel events).stateOf i = some (.got frame) ∨
      ∃ read, (childProcessChannel events).reads[i]? = some read ∧ read.state = .aborted ∧
        read.signal ∈ (childProcessChannel events).raised
  /-- No read has another. -/
  handed : ∀ i frame, (childProcessChannel events).stateOf i = some (.got frame) →
    (i, frame) ∈ framesHanded events
  /-- No read waits while there is a frame to be read, or after the end. -/
  prompt : ∀ i, (childProcessChannel events).stateOf i = some .waiting →
    (childProcessChannel events).buffered = [] ∧ (childProcessChannel events).ended = false
  /-- The end of frames is told only when all frames before it have been read. -/
  complete : ∀ before event after i, events = before ++ event :: after →
    (childProcessChannel before).stateOf i ≠ some .ended →
    (childProcessChannel (before ++ [event])).stateOf i = some .ended →
    framesWritten before = (framesHanded before).map Prod.snd

/-- One event more is one action more, if it is any. -/
theorem channel_snoc (events : List ChannelEvent) (event : ChannelEvent) :
    childProcessChannel (events ++ [event]) =
      event.action.elim (childProcessChannel events) (childProcessChannel events).step := by
  unfold childProcessChannel PullQueue.after
  rw [List.filterMap_append, List.foldl_append]
  cases h : event.action with
  | none => simp [h]
  | some action => simp [h]

/-- **Every frame is delivered in its order, once**, whatever the order of lines, reads, aborts and
endings. -/
theorem frames_delivered (events : List ChannelEvent) : Delivered events where
  written := (channel_kept events).order
  inOrder := (List.pairwise_append.mp (channel_kept events).inOrder).1
  received i frame hmem := by
    refine ((channel_kept events).served i frame hmem).imp id fun hgone => ?_
    obtain ⟨read, hread, hstate⟩ := Option.map_eq_some_iff.mp hgone
    exact ⟨read, hread, hstate, (channel_kept events).givenUp i read hread hstate⟩
  handed := (channel_kept events).got
  prompt i hwaits := by
    have hin := (channel_kept events).waits i hwaits
    have hsome : (childProcessChannel events).waiting ≠ [] := List.ne_nil_of_mem hin
    refine ⟨(channel_kept events).idle.resolve_left hsome, ?_⟩
    cases hended : (childProcessChannel events).ended with
    | false => rfl
    | true => exact absurd ((channel_kept events).closed hended) hsome
  complete before event after i _ hbefore hafter := by
    rw [channel_snoc] at hafter
    cases haction : event.action with
    | none =>
        rw [haction] at hafter
        exact absurd hafter hbefore
    | some action =>
        rw [haction] at hafter
        exact (channel_kept before).ended hbefore hafter

/-- A frame that comes after its read was given up is handed to that read, and reaches nobody. -/
example :
    let events : List ChannelEvent := [.read 0, .abort 0, .line "{}", .read 1]
    (framesHanded events).map Prod.fst = [0] ∧
      (childProcessChannel events).stateOf 0 = some .aborted ∧
      (childProcessChannel events).stateOf 1 = some .waiting :=
  ⟨rfl, rfl, rfl⟩

end SharedOS.Adapters
