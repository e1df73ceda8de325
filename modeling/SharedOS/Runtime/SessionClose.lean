/-
SharedOS.Runtime.SessionClose — the standard loop closes its session once, and asks nothing after.

Between two stretches of the loop one statement says what it has done so far (`Standing`): while it
runs nothing is closed, and once it has come to a report the session is closed, or is to be closed
when it comes. Every step keeps it (`inv_step`), so every run does, and every run comes to rest.
-/
import SharedOS.Foundation.History
import SharedOS.Runtime.StandardLoop

namespace SharedOS.Runtime

open SharedOS.Foundation SharedOS.Contracts

/-! ## What is read off the log -/

namespace LoopEvent

/-- A decision was asked for. -/
def isAsk : LoopEvent → Bool
  | asked _ => true
  | _ => false

/-- A decision has settled. -/
def isDecision : LoopEvent → Bool
  | decided => true
  | _ => false

/-- What the session was closed with, if this closed it. -/
def closeOutcome : LoopEvent → Option ExecutionResultStatus
  | closed outcome => some outcome
  | _ => none

/-- After this nothing is asked. -/
def stops : LoopEvent → Bool
  | drained | closed _ => true
  | _ => false

end LoopEvent

/-- How many decisions were asked for. -/
def asks (log : List LoopEvent) : ℕ := log.countP LoopEvent.isAsk

/-- How many of them have settled. -/
def decisions (log : List LoopEvent) : ℕ := log.countP LoopEvent.isDecision

/-- A decision is asked for where nothing was closed or drained before, and none is outstanding. -/
def AskedFreely (before : List LoopEvent) (event : LoopEvent) : Prop :=
  event.isAsk = true → (∀ earlier ∈ before, earlier.stops = false) ∧ asks before = decisions before

namespace LoopState

/-- What the session was closed with, each time it was. -/
def closes (s : LoopState) : List ExecutionResultStatus := s.log.filterMap LoopEvent.closeOutcome

/-- What the driver's `open` came to. -/
def openingWork (s : LoopState) : Option (Except Unit AgentTurnSession) := s.opening.bind Race.work

/-- The session the opening resolved to. -/
def openedSession (s : LoopState) : Option AgentTurnSession := s.openingWork.bind Except.toOption

/-- The decisions asked for and not settled: one or none. -/
def pending (s : LoopState) : ℕ := if s.decision.any fun race => race.work.isNone then 1 else 0

/-- The loop has reported, and nothing is due. -/
def AtRest (s : LoopState) (report : LoopReport) : Prop :=
  s.point = .reported report ∧ (s.late = none ∨ s.openingWork = none)

/-- The calls of `close` that a session's turn ends with. -/
def closesOf (session : AgentTurnSession) (outcome : ExecutionResultStatus) :
    List ExecutionResultStatus :=
  if session.closable then [outcome] else []

/-! ## The invariant -/

/-- The loop has control: nothing is closed, and nothing is left to close later. -/
structure Running (s : LoopState) : Prop where
  opened : ∀ session, s.session = some session → s.openedSession = some session
  onTime : s.late = none
  unclosed : s.closes = []

/-- The loop has come to a report: the session is closed, or there is none, or it has not come. -/
inductive Ended (s : LoopState) (report : LoopReport) : Prop where
  | closed (session : AgentTurnSession) (opened : s.openedSession = some session)
      (late : s.late = none) (closes : s.closes = closesOf session report.status)
  | nothing (opening : s.opening = none ∨ s.openingWork = some (.error ()))
      (late : s.late = none) (closes : s.closes = [])
  | awaited (opening : s.opening.isSome) (late : s.late = some report.status)
      (closes : s.closes = [])

/-- What holds of the log at any time. -/
structure Logged (maxSteps : ℕ) (s : LoopState) : Prop where
  drained : LoopEvent.drained ∈ s.log → s.draining = some true
  free : WrittenUnder AskedFreely s.log
  pending : asks s.log = decisions s.log + s.pending
  budget : asks s.log ≤ maxSteps

/-- What the loop has done, by what it is waiting for. -/
def Standing (maxSteps : ℕ) (s : LoopState) : Prop :=
  match s.point with
  | .fresh => s.Running ∧ s.opening = none ∧ s.pending = 0 ∧ asks s.log = 0
  | .opening => s.Running ∧ s.opening.isSome ∧ s.pending = 0 ∧ asks s.log = 0
  | .deciding step => s.Running ∧ s.decision.isSome ∧ step < maxSteps ∧ asks s.log = step + 1
  | .calling step _ => s.Running ∧ s.pending = 0 ∧ step < maxSteps ∧ asks s.log = step + 1
  | .closing report _ | .reported report => s.Ended report

/-- **The invariant of the loop**: what it logged, and where it stands. -/
structure Inv (maxSteps : ℕ) (s : LoopState) : Prop where
  logged : s.Logged maxSteps
  standing : s.Standing maxSteps

variable {maxSteps step : ℕ} {s : LoopState}

theorem Ended.same {report : LoopReport} {s' : LoopState} (h : s.Ended report)
    (hopening : s'.opening = s.opening) (hlate : s'.late = s.late) (hlog : s'.log = s.log) :
    s'.Ended report := by
  have hwork : s'.openingWork = s.openingWork := congrArg (Option.bind · Race.work) hopening
  have hopened : s'.openedSession = s.openedSession :=
    congrArg (Option.bind · Except.toOption) hwork
  have hcloses : s'.closes = s.closes := congrArg (List.filterMap LoopEvent.closeOutcome) hlog
  cases h with
  | closed session opened late closes =>
      exact .closed session (hopened.trans opened) (hlate.trans late) (hcloses.trans closes)
  | nothing opening late closes =>
      exact .nothing (opening.imp hopening.trans hwork.trans) (hlate.trans late)
        (hcloses.trans closes)
  | awaited opening late closes =>
      exact .awaited (hopening ▸ opening) (hlate.trans late) (hcloses.trans closes)

/-! ## Writing to the log -/

theorem closes_record (s : LoopState) (event : LoopEvent) :
    (s.record event).closes = s.closes ++ event.closeOutcome.toList := by
  show (s.log ++ [event]).filterMap _ = _
  rw [List.filterMap_append]
  cases event <;> rfl

theorem asks_snoc (log : List LoopEvent) (event : LoopEvent) :
    asks (log ++ [event]) = asks log + if event.isAsk then 1 else 0 := by
  unfold asks
  rw [List.countP_append, List.countP_singleton]

theorem decisions_snoc (log : List LoopEvent) (event : LoopEvent) :
    decisions (log ++ [event]) = decisions log + if event.isDecision then 1 else 0 := by
  unfold decisions
  rw [List.countP_append, List.countP_singleton]

/-- An entry that asks for nothing, settles nothing and tells no draining. -/
theorem Logged.record (h : s.Logged maxSteps) (event : LoopEvent) (hask : event.isAsk = false)
    (hdecision : event.isDecision = false) (hdrained : event ≠ .drained) :
    (s.record event).Logged maxSteps where
  drained hin := h.drained ((List.mem_append.mp hin).resolve_right fun hlast =>
    hdrained (List.mem_singleton.mp hlast).symm)
  free := writtenUnder_snoc.mpr ⟨h.free, fun hasked => absurd (hask.symm.trans hasked) nofun⟩
  pending := by
    show asks (s.log ++ [event]) = decisions (s.log ++ [event]) + s.pending
    rw [asks_snoc, decisions_snoc, hask, hdecision]
    exact h.pending
  budget := by
    show asks (s.log ++ [event]) ≤ maxSteps
    rw [asks_snoc, hask]
    exact h.budget

/-- While the loop runs and is not draining, nothing in the log stops it. -/
theorem Running.unstopped (h : s.Running) (hlog : s.Logged maxSteps)
    (hdraining : s.draining ≠ some true) : ∀ earlier ∈ s.log, earlier.stops = false := by
  intro earlier hin
  cases earlier with
  | drained => exact absurd (hlog.drained hin) hdraining
  | closed outcome =>
      have hcloses : outcome ∈ s.closes := List.mem_filterMap.mpr ⟨_, hin, rfl⟩
      rw [h.unclosed] at hcloses
      cases hcloses
  | _ => rfl

/-! ## Ways out -/

/-- The log is as it was, and what is outstanding too. -/
theorem Logged.same {s' : LoopState} (h : s.Logged maxSteps) (hlog : s'.log = s.log)
    (hdraining : s.draining = some true → s'.draining = some true)
    (hpending : s'.pending = s.pending) : s'.Logged maxSteps where
  drained hin := hdraining (h.drained (hlog ▸ hin))
  free := hlog ▸ h.free
  pending := by
    rw [hlog, hpending]
    exact h.pending
  budget := hlog ▸ h.budget

/-- Without a session to close there is nothing to wait for. -/
theorem closeSession_of_not {outcome : ExecutionResultStatus} {report : LoopReport}
    (h : s.session.any AgentTurnSession.closable = false) :
    s.closeSession outcome report = { s with point := .closing report true } := by
  unfold closeSession
  rw [h, if_neg Bool.false_ne_true]

/-- Whatever the loop ends with, the session is closed with it, now or when it comes. -/
theorem finish_inv (hrun : s.Running) (hlog : s.Logged maxSteps) (report : LoopReport) :
    (s.finish report.status report).Inv maxSteps := by
  unfold finish
  rcases Option.eq_none_or_eq_some s.session with hsession | ⟨session, hsession⟩
  · have hnone : s.session.any AgentTurnSession.closable = false := by
      rw [hsession]
      rfl
    by_cases hopening : s.opening.isSome
    · rw [if_pos ⟨hsession ▸ rfl, hopening⟩, closeSession_of_not (s := { s with late := some report.status }) hnone]
      exact ⟨hlog.same rfl id rfl, .awaited hopening rfl hrun.unclosed⟩
    · rw [if_neg fun h => hopening h.2, closeSession_of_not hnone]
      refine ⟨hlog.same rfl id rfl, .nothing (.inl ?_) hrun.onTime hrun.unclosed⟩
      exact Option.not_isSome_iff_eq_none.mp hopening
  · have hopened := hrun.opened session hsession
    have hany : s.session.any AgentTurnSession.closable = session.closable := by
      rw [hsession]
      rfl
    rw [if_neg fun h => by rw [hsession] at h; exact Bool.false_ne_true h.1]
    cases hclosable : session.closable with
    | true =>
        unfold closeSession
        rw [if_pos (hany.trans hclosable)]
        refine ⟨(hlog.record (.closed report.status) rfl rfl nofun).same rfl id rfl,
          .closed session hopened hrun.onTime ?_⟩
        refine (closes_record s (.closed report.status)).trans ?_
        rw [hrun.unclosed, closesOf, if_pos hclosable]
        rfl
    | false =>
        rw [closeSession_of_not (hany.trans hclosable)]
        refine ⟨hlog.same rfl id rfl, .closed session hopened hrun.onTime ?_⟩
        rw [closesOf, hclosable, if_neg Bool.false_ne_true]
        exact hrun.unclosed

theorem caught_inv (hrun : s.Running) (hlog : s.Logged maxSteps) : s.caught.Inv maxSteps := by
  unfold caught
  split
  · exact finish_inv hrun hlog .threw
  · exact finish_inv hrun hlog (.returned _ _)

/-! ## Stretches of the loop -/

/-- The loop still has control, over another state with the same session, opening and log. -/
theorem Running.same {s' : LoopState} (h : s.Running) (hsession : s'.session = s.session)
    (hopening : s'.opening = s.opening) (hlate : s'.late = s.late) (hlog : s'.log = s.log) :
    s'.Running where
  opened session hheld := by
    unfold openedSession openingWork
    rw [hopening]
    exact h.opened session (hsession ▸ hheld)
  onTime := hlate.trans h.onTime
  unclosed := by
    unfold closes
    rw [hlog]
    exact h.unclosed

theorem Running.record (h : s.Running) (event : LoopEvent) (hclose : event.closeOutcome = none) :
    (s.record event).Running where
  opened := h.opened
  onTime := h.onTime
  unclosed := by
    rw [closes_record, h.unclosed, hclose]
    rfl

/-- A decision is asked for while none is outstanding, and nothing has been closed or drained. -/
theorem ask_inv (hrun : s.Running) (hlog : s.Logged maxSteps) (hpending : s.pending = 0)
    (hdraining : s.draining ≠ some true) (hasks : asks s.log = step) (hstep : step < maxSteps)
    (input : AgentTurnInput) (answers : Bool) : (s.ask step input answers).Inv maxSteps := by
  have hasked : asks (s.log ++ [.asked input]) = step + 1 := by
    rw [asks_snoc, hasks]
    rfl
  have hfree : WrittenUnder AskedFreely (s.log ++ [.asked input]) := by
    refine writtenUnder_snoc.mpr ⟨hlog.free, fun _ => ⟨hrun.unstopped hlog hdraining, ?_⟩⟩
    rw [hlog.pending, hpending, Nat.add_zero]
  have hdrained : LoopEvent.drained ∈ s.log ++ [.asked input] → s.draining = some true := by
    intro hin
    exact hlog.drained ((List.mem_append.mp hin).resolve_right nofun)
  have hsettled : decisions s.log = step := by
    rw [← hasks, hlog.pending, hpending, Nat.add_zero]
  unfold ask
  cases answers with
  | true =>
      refine ⟨⟨hdrained, hfree, ?_, ?_⟩,
        (hrun.record (.asked input) rfl).same rfl rfl rfl rfl, rfl, hstep, hasked⟩
      · show asks (s.log ++ [.asked input]) = decisions (s.log ++ [.asked input]) + 1
        rw [hasked, decisions_snoc, hsettled]
        rfl
      · show asks (s.log ++ [.asked input]) ≤ maxSteps
        omega
  | false =>
      refine caught_inv ?_ ⟨?_, ?_, ?_, ?_⟩
      · exact ((hrun.record (.asked input) rfl).record .decided rfl).same rfl rfl rfl rfl
      · intro hin
        exact hdrained ((List.mem_append.mp hin).resolve_right nofun)
      · exact writtenUnder_snoc.mpr ⟨hfree, nofun⟩
      · show asks (s.log ++ [.asked input] ++ [.decided]) =
          decisions (s.log ++ [.asked input] ++ [.decided]) + 0
        rw [asks_snoc, hasked, decisions_snoc, decisions_snoc, hsettled]
        rfl
      · show asks (s.log ++ [.asked input] ++ [.decided]) ≤ maxSteps
        rw [asks_snoc, hasked]
        show step + 1 + 0 ≤ maxSteps
        omega

theorem head_inv (hrun : s.Running) (hlog : s.Logged maxSteps) (hpending : s.pending = 0)
    (hasks : asks s.log = step) (input : AgentTurnInput) (answers : Bool) :
    (s.head maxSteps step input answers).Inv maxSteps := by
  unfold head
  split
  · next hstep =>
      split
      · exact caught_inv hrun hlog
      · next hdraining => exact ask_inv hrun hlog hpending hdraining hasks hstep input answers
  · exact finish_inv hrun hlog (.returned _ _)

theorem received_inv (hrun : s.Running) (hlog : s.Logged maxSteps) (hpending : s.pending = 0)
    (hasks : asks s.log = 0) {session : AgentTurnSession}
    (hopened : s.openedSession = some session) (hooks : LoopHooks) :
    (s.received maxSteps session hooks).Inv maxSteps := by
  -- from here on the loop holds the session
  have hheld : ({ s with session := some session } : LoopState).Running :=
    ⟨fun other hother => Option.some.inj hother ▸ hopened, hrun.onTime, hrun.unclosed⟩
  have hlogged : ({ s with session := some session } : LoopState).Logged maxSteps :=
    hlog.same rfl id rfl
  unfold received
  cases session.promptHash with
  | none => exact head_inv hheld hlogged hpending hasks .start hooks.answers
  | some promptHash =>
      dsimp only
      split
      · let event : LoopEvent := .annotated "promptHash" (.str promptHash)
        refine head_inv (hheld.record event rfl) (hlogged.record event rfl rfl nofun) hpending ?_
          .start hooks.answers
        show asks (s.log ++ [event]) = 0
        rw [asks_snoc, hasks]
        rfl
      · exact caught_inv hheld hlogged

theorem invoke_inv (hrun : s.Running) (hlog : s.Logged maxSteps) (hpending : s.pending = 0)
    (hstep : step < maxSteps) (hasks : asks s.log = step + 1) (call : ToolCall)
    (declared : Option ℕ) (answers : Bool) : (s.invoke step call declared answers).Inv maxSteps := by
  have hrecorded := hlog.record (.invoked call (declared.getD step)) rfl rfl nofun
  have hrunning := hrun.record (.invoked call (declared.getD step)) rfl
  unfold invoke
  cases answers with
  | true =>
      refine ⟨hrecorded.same rfl id rfl, hrunning.same rfl rfl rfl rfl, hpending, hstep, ?_⟩
      show asks (s.log ++ [_]) = step + 1
      rw [asks_snoc, hasks]
      rfl
  | false => exact caught_inv hrunning hrecorded

theorem decide_inv [HostPlatform] (hrun : s.Running) (hlog : s.Logged maxSteps)
    (hpending : s.pending = 0) (hstep : step < maxSteps) (hasks : asks s.log = step + 1)
    (candidate : AgentTurnCandidate) (hooks : LoopHooks) :
    (s.decide step candidate hooks).Inv maxSteps := by
  unfold decide
  cases parseAgentTurnDecision candidate with
  | none => exact finish_inv hrun hlog (invalidDriverDecision _)
  | some decision =>
      cases decision with
      | complete output metadata => exact finish_inv hrun hlog (.returned (.complete output) metadata)
      | fail error metadata => exact finish_inv hrun hlog (.returned (.fail error) metadata)
      | escalate reason metadata =>
          dsimp only
          split
          · let event : LoopEvent :=
              .annotated "escalationAsked" ( escalationAskedAnnotation reason)
            exact finish_inv (hrun.record event rfl) (hlog.record event rfl rfl nofun)
              (.returned (.escalate reason) metadata)
          · exact caught_inv hrun hlog
      | toolCall call declared =>
          dsimp only
          split
          · exact finish_inv hrun hlog (invalidDriverDecision _)
          · exact invoke_inv hrun hlog hpending hstep hasks call declared hooks.answers

theorem answered_inv (hrun : s.Running) (hlog : s.Logged maxSteps) (hpending : s.pending = 0)
    (hasks : asks s.log = step + 1) (result : ToolResult) (answers : Bool) :
    (s.answered maxSteps step result answers).Inv maxSteps := by
  unfold answered
  split
  · exact caught_inv hrun hlog
  · exact head_inv hrun hlog hpending hasks (.toolResult result) answers

/-! ## Steps -/

/-- A wait that ended with a result is over for what was asked, too. -/
theorem pending_of_settled {candidate : Except Unit AgentTurnCandidate}
    (h : s.decision.bind Race.waited = some (.settled candidate)) : s.pending = 0 := by
  obtain ⟨race, hrace, hwaited⟩ := Option.bind_eq_some_iff.mp h
  unfold pending
  rw [hrace]
  show (if race.work.isNone = true then 1 else 0) = 0
  rw [race.faithful candidate hwaited]
  rfl

theorem openedSession_of_settled {session : AgentTurnSession}
    (h : s.opening.bind Race.waited = some (.settled (.ok session))) :
    s.openedSession = some session := by
  obtain ⟨race, hrace, hwaited⟩ := Option.bind_eq_some_iff.mp h
  unfold openedSession openingWork
  rw [hrace, Option.bind_some, race.faithful _ hwaited]
  rfl

/-- What the loop holds and has done is as it was, but for what its promises have come to since. -/
theorem Inv.moved {s' : LoopState} (h : s.Inv maxSteps) (hlogged : s'.Logged maxSteps)
    (hpoint : s'.point = s.point) (hsession : s'.session = s.session) (hlate : s'.late = s.late)
    (hcloses : s'.closes = s.closes) (hasks : asks s'.log = asks s.log)
    (hopening : s'.opening.isSome = s.opening.isSome)
    (hwork : ∀ result, s.openingWork = some result → s'.openingWork = some result)
    (hdecision : s'.decision.isSome = s.decision.isSome)
    (hpending : s.pending = 0 → s'.pending = 0) : s'.Inv maxSteps := by
  have hopened : ∀ session, s.openedSession = some session → s'.openedSession = some session := by
    intro session hold
    obtain ⟨result, hresult, hok⟩ := Option.bind_eq_some_iff.mp hold
    exact Option.bind_eq_some_iff.mpr ⟨result, hwork result hresult, hok⟩
  have hrunning : s.Running → s'.Running := fun hrun =>
    ⟨fun session hheld => hopened session (hrun.opened session (hsession ▸ hheld)),
      hlate.trans hrun.onTime, hcloses.trans hrun.unclosed⟩
  have hnone : s.opening = none → s'.opening = none := by
    intro hold
    rw [hold] at hopening
    exact Option.isNone_iff_eq_none.mp (by rw [← Option.not_isSome, hopening]; rfl)
  have hended : ∀ report, s.Ended report → s'.Ended report := by
    intro report hend
    cases hend with
    | closed session hold hlate' hcloses' =>
        exact .closed session (hopened session hold) (hlate.trans hlate') (hcloses.trans hcloses')
    | nothing hold hlate' hcloses' =>
        exact .nothing (hold.imp hnone (hwork _)) (hlate.trans hlate') (hcloses.trans hcloses')
    | awaited hold hlate' hcloses' =>
        exact .awaited (hopening.trans hold) (hlate.trans hlate') (hcloses.trans hcloses')
  refine ⟨hlogged, ?_⟩
  have hstanding := h.standing
  unfold Standing at hstanding ⊢
  rw [hpoint, hasks]
  revert hstanding
  cases s.point with
  | fresh => exact fun ⟨hrun, hopen, hpend, hcount⟩ => ⟨hrunning hrun, hnone hopen, hpending hpend, hcount⟩
  | opening =>
      exact fun ⟨hrun, hopen, hpend, hcount⟩ =>
        ⟨hrunning hrun, hopening.trans hopen, hpending hpend, hcount⟩
  | deciding step =>
      exact fun ⟨hrun, hdec, hstep, hcount⟩ =>
        ⟨hrunning hrun, hdecision.trans hdec, hstep, hcount⟩
  | calling step answer =>
      exact fun ⟨hrun, hpend, hstep, hcount⟩ => ⟨hrunning hrun, hpending hpend, hstep, hcount⟩
  | closing report ended => exact hended report
  | reported report => exact hended report

theorem inv_run (h : s.Inv maxSteps) (hpoint : s.point = .fresh) (opens : Bool) :
    (if opens then { s with opening := some (.start s.signal), point := .opening }
      else s.caught).Inv maxSteps := by
  have hstanding := h.standing
  unfold Standing at hstanding
  rw [hpoint] at hstanding
  obtain ⟨hrun, hopening, hpending, hasks⟩ := hstanding
  cases opens with
  | false => exact caught_inv hrun h.logged
  | true =>
      refine ⟨h.logged.same rfl id rfl, ⟨?_, hrun.onTime, hrun.unclosed⟩, rfl, hpending, hasks⟩
      -- there is no session before the driver was asked for one
      intro session hheld
      have hopened := hrun.opened session hheld
      unfold openedSession openingWork at hopened
      rw [hopening] at hopened
      cases hopened

theorem inv_signalFires (h : s.Inv maxSteps) :
    ({ s with
      signal := true
      opening := s.opening.map Race.abandon
      decision := s.decision.map Race.abandon } : LoopState).Inv maxSteps := by
  have hpending : ((s.decision.map Race.abandon).any fun race => race.work.isNone) =
      s.decision.any fun race => race.work.isNone := by
    cases s.decision with
    | none => rfl
    | some race =>
        show race.abandon.work.isNone = race.work.isNone
        rw [Race.abandon_work]
  have hcount : (if (s.decision.map Race.abandon).any fun race => race.work.isNone then 1 else 0) =
      s.pending := by
    rw [hpending]
    rfl
  refine h.moved (h.logged.same rfl id hcount) rfl rfl rfl rfl rfl (Option.isSome_map ..) ?_
    (Option.isSome_map ..) hcount.trans
  intro result hresult
  obtain ⟨race, hrace, hwork⟩ := Option.bind_eq_some_iff.mp hresult
  show (s.opening.map Race.abandon).bind Race.work = some result
  rw [hrace, Option.map_some, Option.bind_some, Race.abandon_work]
  exact hwork

theorem inv_drainingFires (h : s.Inv maxSteps) :
    ({ s.record .drained with draining := some true } : LoopState).Inv maxSteps := by
  have hlogged : ({ s.record .drained with draining := some true } : LoopState).Logged maxSteps := by
    refine ⟨fun _ => rfl, writtenUnder_snoc.mpr ⟨h.logged.free, nofun⟩, ?_, ?_⟩
    · show asks (s.log ++ [.drained]) = decisions (s.log ++ [.drained]) + s.pending
      rw [asks_snoc, decisions_snoc]
      exact h.logged.pending
    · show asks (s.log ++ [.drained]) ≤ maxSteps
      rw [asks_snoc]
      exact h.logged.budget
  refine h.moved hlogged rfl rfl rfl ?_ ?_ rfl (fun _ => id) rfl id
  · exact (closes_record s .drained).trans (List.append_nil _)
  · exact asks_snoc s.log .drained

/-- The opening settles, or its reaction runs: what it had come to stays. -/
theorem inv_opening (h : s.Inv maxSteps) {race next : Race AgentTurnSession}
    (hrace : s.opening = some race) (hwork : ∀ result, race.work = some result →
      next.work = some result) :
    ({ s with opening := some next } : LoopState).Inv maxSteps := by
  refine h.moved (h.logged.same rfl id rfl) rfl rfl rfl rfl rfl ?_ ?_ rfl id
  · rw [hrace]
    rfl
  · intro result hresult
    unfold openingWork at hresult
    rw [hrace] at hresult
    exact hwork result hresult

theorem inv_decisionSettles (h : s.Inv maxSteps) {race next : Race AgentTurnCandidate}
    (hrace : s.decision = some race) (hunsettled : race.work = none)
    {result : Except Unit AgentTurnCandidate} (hwork : next.work = some result) :
    ({ s.record .decided with decision := some next } : LoopState).Inv maxSteps := by
  have hpending : s.pending = 1 := by
    unfold pending
    rw [hrace]
    show (if race.work.isNone = true then 1 else 0) = 1
    rw [hunsettled]
    rfl
  have hsettled : ({ s.record .decided with decision := some next } : LoopState).pending = 0 := by
    show (if next.work.isNone = true then 1 else 0) = 0
    rw [hwork]
    rfl
  have hlogged : ({ s.record .decided with decision := some next } : LoopState).Logged
      maxSteps := by
    refine ⟨?_, writtenUnder_snoc.mpr ⟨h.logged.free, nofun⟩, ?_, ?_⟩
    · intro hin
      exact h.logged.drained ((List.mem_append.mp hin).resolve_right nofun)
    · show asks (s.log ++ [.decided]) = decisions (s.log ++ [.decided]) + _
      rw [asks_snoc, decisions_snoc, hsettled, h.logged.pending, hpending]
      rfl
    · show asks (s.log ++ [.decided]) ≤ maxSteps
      rw [asks_snoc]
      exact h.logged.budget
  refine h.moved hlogged rfl rfl rfl ?_ ?_ rfl (fun _ => id) ?_ fun _ => hsettled
  · exact (closes_record s .decided).trans (List.append_nil _)
  · exact asks_snoc s.log .decided
  · rw [hrace]
    rfl

theorem inv_decisionReacts (h : s.Inv maxSteps) {race next : Race AgentTurnCandidate}
    (hrace : s.decision = some race) (hwork : next.work = race.work) :
    ({ s with decision := some next } : LoopState).Inv maxSteps := by
  have hpending : ({ s with decision := some next } : LoopState).pending = s.pending := by
    unfold pending
    rw [hrace]
    show (if next.work.isNone = true then 1 else 0) = if race.work.isNone = true then 1 else 0
    rw [hwork]
  refine h.moved (h.logged.same rfl id hpending) rfl rfl rfl rfl rfl rfl (fun _ => id) ?_
    hpending.trans
  rw [hrace]
  rfl

theorem inv_opened (h : s.Inv maxSteps) {hooks : LoopHooks} {s' : LoopState}
    (hstep : s.resumeOpened maxSteps hooks = some s') : s'.Inv maxSteps := by
  have hstanding := h.standing
  unfold Standing at hstanding
  unfold resumeOpened at hstep
  split at hstep
  · next session hpoint hwaited =>
      rw [hpoint] at hstanding
      obtain ⟨hrun, -, hpending, hasks⟩ := hstanding
      rw [← Option.some.inj hstep]
      exact received_inv hrun h.logged hpending hasks (openedSession_of_settled hwaited) hooks
  · next hpoint _ =>
      rw [hpoint] at hstanding
      rw [← Option.some.inj hstep]
      exact caught_inv hstanding.1 h.logged
  · cases hstep

theorem inv_decided [HostPlatform] (h : s.Inv maxSteps) {hooks : LoopHooks} {s' : LoopState}
    (hstep : s.resumeDecided hooks = some s') : s'.Inv maxSteps := by
  have hstanding := h.standing
  unfold Standing at hstanding
  unfold resumeDecided at hstep
  split at hstep
  · next step candidate hpoint hwaited =>
      rw [hpoint] at hstanding
      obtain ⟨hrun, -, hlimit, hasks⟩ := hstanding
      rw [← Option.some.inj hstep]
      exact decide_inv hrun h.logged (pending_of_settled hwaited) hlimit hasks candidate hooks
  · next hpoint _ =>
      rw [hpoint] at hstanding
      rw [← Option.some.inj hstep]
      exact caught_inv hstanding.1 h.logged
  · cases hstep

theorem inv_called (h : s.Inv maxSteps) {hooks : LoopHooks} {s' : LoopState}
    (hstep : s.resumeCalled maxSteps hooks = some s') : s'.Inv maxSteps := by
  have hstanding := h.standing
  unfold Standing at hstanding
  unfold resumeCalled at hstep
  split at hstep
  · next step result hpoint =>
      rw [hpoint] at hstanding
      obtain ⟨hrun, hpending, -, hasks⟩ := hstanding
      rw [← Option.some.inj hstep]
      exact answered_inv hrun h.logged hpending hasks result hooks.answers
  · next hpoint =>
      rw [hpoint] at hstanding
      rw [← Option.some.inj hstep]
      exact caught_inv hstanding.1 h.logged
  · cases hstep

/-- A session that comes after the report is closed with what the report says, and once. -/
theorem inv_lateReacts (h : s.Inv maxSteps) {s' : LoopState} (hstep : s.reactLate = some s') :
    s'.Inv maxSteps := by
  unfold reactLate at hstep
  obtain ⟨outcome, hlate⟩ : ∃ outcome, s.late = some outcome := by
    refine Option.ne_none_iff_exists'.mp fun hnone => ?_
    rw [hnone] at hstep
    cases hstep
  -- only a report leaves a session to be closed later
  obtain ⟨report, hpoint, hended⟩ : ∃ report, ((∃ ended, s.point = .closing report ended) ∨
      s.point = .reported report) ∧ s.Ended report := by
    have hstanding := h.standing
    unfold Standing at hstanding
    have hbusy : ∀ hrun : s.Running, False := fun hrun => by
      have := hrun.onTime
      rw [hlate] at this
      cases this
    split at hstanding
    · exact (hbusy hstanding.1).elim
    · exact (hbusy hstanding.1).elim
    · exact (hbusy hstanding.1).elim
    · exact (hbusy hstanding.1).elim
    · next report ended hp => exact ⟨report, .inl ⟨ended, hp⟩, hstanding⟩
    · next report hp => exact ⟨report, .inr hp, hstanding⟩
  have hstands : ∀ next : LoopState, next.point = s.point → next.Ended report →
      next.Standing maxSteps := by
    intro next hnext hend
    unfold Standing
    rw [hnext]
    rcases hpoint with ⟨ended, hp⟩ | hp
    · rw [hp]
      exact hend
    · rw [hp]
      exact hend
  cases hended with
  | closed _ _ hnone _ => cases hnone.symm.trans hlate
  | nothing _ hnone _ => cases hnone.symm.trans hlate
  | awaited hopening hawaited hcloses =>
      obtain rfl : outcome = report.status := Option.some.inj (hlate.symm.trans hawaited)
      rw [hlate] at hstep
      split at hstep
      · next session heq hwork =>
          obtain rfl := Option.some.inj heq
          have hopened : s.openedSession = some session := Option.bind_eq_some_iff.mpr
            ⟨_, hwork, rfl⟩
          rw [← Option.some.inj hstep]
          cases hclosable : session.closable with
          | true =>
              rw [if_pos rfl]
              refine ⟨(h.logged.record (.closed report.status) rfl rfl nofun).same rfl id rfl,
                hstands _ rfl (.closed session hopened rfl ?_)⟩
              refine (closes_record s (.closed report.status)).trans ?_
              rw [hcloses, closesOf, if_pos hclosable]
              rfl
          | false =>
              rw [if_neg Bool.false_ne_true]
              refine ⟨h.logged.same rfl id rfl, hstands _ rfl (.closed session hopened rfl ?_)⟩
              rw [closesOf, hclosable, if_neg Bool.false_ne_true]
              exact hcloses
      · next hwork =>
          rw [← Option.some.inj hstep]
          exact ⟨h.logged.same rfl id rfl, hstands _ rfl (.nothing (.inr hwork) rfl hcloses)⟩
      · cases hstep

/-- **Every step keeps the invariant.** -/
theorem inv_step [HostPlatform] (s : LoopState) (label : LoopLabel) (s' : LoopState)
    (h : s.Inv maxSteps) (hstep : s.step maxSteps label = some s') : s'.Inv maxSteps := by
  have hstanding := h.standing
  unfold Standing at hstanding
  cases label with
  | run opens =>
      simp only [step] at hstep
      split at hstep
      · next hpoint =>
          rw [← Option.some.inj hstep]
          exact inv_run h hpoint opens
      · cases hstep
  | signalFires =>
      simp only [step] at hstep
      split at hstep
      · cases hstep
      · rw [← Option.some.inj hstep]
        exact inv_signalFires h
  | drainingFires =>
      simp only [step] at hstep
      split at hstep
      · rw [← Option.some.inj hstep]
        exact inv_drainingFires h
      · cases hstep
  | openingSettles result =>
      obtain ⟨next, hnext, rfl⟩ := Option.map_eq_some_iff.mp hstep
      obtain ⟨race, hrace, hsettle⟩ := Option.bind_eq_some_iff.mp hnext
      have hunsettled := (Race.settle_eq_some.mp hsettle).1
      exact inv_opening h hrace fun other hother => absurd (hunsettled.symm.trans hother) nofun
  | openingReacts =>
      obtain ⟨next, hnext, rfl⟩ := Option.map_eq_some_iff.mp hstep
      obtain ⟨race, hrace, hreact⟩ := Option.bind_eq_some_iff.mp hnext
      obtain ⟨-, result, hwork, hwork', -⟩ := Race.react_eq_some.mp hreact
      exact inv_opening h hrace fun other hother =>
        hwork'.trans (hwork.symm.trans hother)
  | opened hooks => exact inv_opened h hstep
  | decisionSettles result =>
      obtain ⟨next, hnext, rfl⟩ := Option.map_eq_some_iff.mp hstep
      obtain ⟨race, hrace, hsettle⟩ := Option.bind_eq_some_iff.mp hnext
      obtain ⟨hunsettled, hwork, -⟩ := Race.settle_eq_some.mp hsettle
      exact inv_decisionSettles h hrace hunsettled hwork
  | decisionReacts =>
      obtain ⟨next, hnext, rfl⟩ := Option.map_eq_some_iff.mp hstep
      obtain ⟨race, hrace, hreact⟩ := Option.bind_eq_some_iff.mp hnext
      obtain ⟨-, result, hwork, hwork', -⟩ := Race.react_eq_some.mp hreact
      exact inv_decisionReacts h hrace (hwork'.trans hwork.symm)
  | decided hooks => exact inv_decided h hstep
  | toolSettles result =>
      simp only [step] at hstep
      split at hstep
      · next n hpoint =>
          rw [hpoint] at hstanding
          rw [← Option.some.inj hstep]
          exact ⟨h.logged.same rfl id rfl, hstanding.1.same rfl rfl rfl rfl, hstanding.2⟩
      · cases hstep
  | called hooks => exact inv_called h hstep
  | closeEnds =>
      simp only [step] at hstep
      split at hstep
      · next report hpoint =>
          rw [hpoint] at hstanding
          rw [← Option.some.inj hstep]
          exact ⟨h.logged.same rfl id rfl, hstanding.same rfl rfl rfl⟩
      · cases hstep
  | closed =>
      simp only [step] at hstep
      split at hstep
      · next report hpoint =>
          rw [hpoint] at hstanding
          rw [← Option.some.inj hstep]
          exact ⟨h.logged.same rfl id rfl, hstanding.same rfl rfl rfl⟩
      · cases hstep
  | lateReacts => exact inv_lateReacts h hstep

theorem inv_initial (signal : Bool) (draining : Option Bool) :
    (initial signal draining).Inv maxSteps := by
  refine ⟨⟨?_, ?_, ?_, ?_⟩, ⟨nofun, rfl, ?_⟩, rfl, rfl, ?_⟩
  · intro hin
    show draining = some true
    by_contra hne
    unfold initial at hin
    dsimp only at hin
    rw [if_neg hne] at hin
    cases hin
  · unfold initial
    dsimp only
    split
    · show WrittenUnder AskedFreely ([] ++ [.drained])
      exact writtenUnder_snoc.mpr ⟨writtenUnder_nil, nofun⟩
    · exact writtenUnder_nil
  · unfold initial
    dsimp only
    split <;> rfl
  · unfold initial
    dsimp only
    split <;> exact Nat.zero_le _
  · unfold initial closes
    dsimp only
    split <;> rfl
  · unfold initial
    dsimp only
    split <;> rfl

theorem inv_of_run [HostPlatform] {signal : Bool} {draining : Option Bool}
    {labels : List LoopLabel} (h : run (LoopState.step maxSteps) (initial signal draining) labels = some s) :
    s.Inv maxSteps :=
  run_invariant inv_step (inv_initial signal draining) h

/-! ## Every run ends -/

/-- What a wait may still take: the work to settle, and the wait to end. -/
def waitCost {α : Type} (race : Option (Race α)) : ℕ :=
  race.elim 0 fun race => (if race.work.isNone then 1 else 0) + if race.waited.isNone then 1 else 0

/-- What the loop itself may still take. -/
def pointCost (maxSteps : ℕ) : LoopPoint → ℕ
  | .fresh => 5 * maxSteps + 13
  | .opening => 5 * maxSteps + 10
  | .deciding step => 5 * (maxSteps - step) + 7
  | .calling step none => 5 * (maxSteps - step) + 6
  | .calling step (some _) => 5 * (maxSteps - step) + 5
  | .closing _ false => 2
  | .closing _ true => 1
  | .reported _ => 0

/-- What the signals and the opening may still take. -/
def outsideCost (s : LoopState) : ℕ :=
  (if s.signal then 0 else 1) + (if s.draining = some false then 1 else 0) + waitCost s.opening

/-- What may still happen. -/
def cost (maxSteps : ℕ) (s : LoopState) : ℕ :=
  pointCost maxSteps s.point + (if s.late.isSome then 1 else 0) + s.outsideCost +
    waitCost s.decision

theorem waitCost_start {α : Type} (fired : Bool) : waitCost (some (Race.start (α := α) fired)) ≤ 2 := by
  cases fired
  · exact le_refl 2
  · exact Nat.le_succ 1

theorem waitCost_abandon {α : Type} (race : Option (Race α)) :
    waitCost (race.map Race.abandon) ≤ waitCost race := by
  cases race with
  | none => exact le_refl 0
  | some race =>
      show (if race.abandon.work.isNone then 1 else 0) + (if race.abandon.waited.isNone then 1 else 0) ≤
        (if race.work.isNone then 1 else 0) + if race.waited.isNone then 1 else 0
      rw [Race.abandon_work, Race.abandon_waited]
      exact Nat.add_le_add_left (Nat.zero_le _) _

theorem waitCost_settle {α : Type} {race next : Race α} {result : Except Unit α}
    (h : race.settle result = some next) : waitCost (some next) < waitCost (some race) := by
  obtain ⟨hwork, hwork', hwaited⟩ := Race.settle_eq_some.mp h
  show (if next.work.isNone then 1 else 0) + (if next.waited.isNone then 1 else 0) <
    (if race.work.isNone then 1 else 0) + if race.waited.isNone then 1 else 0
  rw [hwork, hwork', hwaited]
  exact Nat.add_lt_add_right Nat.zero_lt_one _

theorem waitCost_react {α : Type} {race next : Race α} (h : race.react = some next) :
    waitCost (some next) < waitCost (some race) := by
  obtain ⟨hwaited, result, hwork, hwork', hwaited'⟩ := Race.react_eq_some.mp h
  show (if next.work.isNone then 1 else 0) + (if next.waited.isNone then 1 else 0) <
    (if race.work.isNone then 1 else 0) + if race.waited.isNone then 1 else 0
  rw [hwork, hwork', hwaited, hwaited']
  exact Nat.zero_lt_one

/-- A way out leaves a close to wait for, and perhaps a late session. -/
theorem finish_cost (s : LoopState) (outcome : ExecutionResultStatus) (report : LoopReport) :
    (s.finish outcome report).cost maxSteps ≤ 3 + s.outsideCost + waitCost s.decision := by
  have hclose : ∀ t : LoopState, (t.closeSession outcome report).cost maxSteps ≤
      2 + (if t.late.isSome then 1 else 0) + t.outsideCost + waitCost t.decision := by
    intro t
    unfold closeSession
    split
    · exact le_refl _
    · show 1 + (if t.late.isSome then 1 else 0) + t.outsideCost + waitCost t.decision ≤ _
      omega
  unfold finish
  split
  · exact hclose { s with late := some outcome }
  · refine (hclose s).trans ?_
    split <;> omega

theorem caught_cost (s : LoopState) :
    s.caught.cost maxSteps ≤ 3 + s.outsideCost + waitCost s.decision := by
  unfold caught
  split
  · exact finish_cost s _ _
  · exact finish_cost s _ _

/-- The head of the loop leaves a decision to wait for, or a close. -/
theorem head_cost (s : LoopState) (step : ℕ) (input : AgentTurnInput) (answers : Bool) :
    (s.head maxSteps step input answers).cost maxSteps ≤
      max 3 (if step < maxSteps then 5 * (maxSteps - step) + 9 else 0) +
        (if s.late.isSome then 1 else 0) + s.outsideCost + waitCost s.decision := by
  unfold head
  by_cases hstep : step < maxSteps
  · rw [if_pos hstep, if_pos hstep]
    have hthree : 3 ≤ max 3 (5 * (maxSteps - step) + 9) := le_max_left _ _
    have hask : 5 * (maxSteps - step) + 9 ≤ max 3 (5 * (maxSteps - step) + 9) := le_max_right _ _
    split
    · have hcaught : s.caught.cost maxSteps ≤ _ := caught_cost s
      omega
    · unfold ask
      cases answers with
      | true =>
          show 5 * (maxSteps - step) + 7 + (if s.late.isSome then 1 else 0) + s.outsideCost +
            waitCost (some (Race.start s.signal)) ≤ _
          have hstart : waitCost (some (Race.start s.signal : Race AgentTurnCandidate)) ≤ 2 :=
            waitCost_start _
          omega
      | false =>
          refine (caught_cost _).trans ?_
          show 3 + s.outsideCost + 0 ≤ _
          omega
  · rw [if_neg hstep, if_neg hstep]
    refine (finish_cost s _ _).trans ?_
    rw [Nat.max_eq_left (Nat.zero_le 3)]
    omega

theorem received_cost (s : LoopState) (session : AgentTurnSession) (hooks : LoopHooks) :
    (s.received maxSteps session hooks).cost maxSteps <
      5 * maxSteps + 10 + (if s.late.isSome then 1 else 0) + s.outsideCost + waitCost s.decision := by
  have hlimit : max 3 (if 0 < maxSteps then 5 * (maxSteps - 0) + 9 else 0) < 5 * maxSteps + 10 := by
    split <;> omega
  have hhead : ∀ t : LoopState, t.late = s.late → t.outsideCost = s.outsideCost →
      t.decision = s.decision → (t.head maxSteps 0 .start hooks.answers).cost maxSteps <
        5 * maxSteps + 10 + (if s.late.isSome then 1 else 0) + s.outsideCost +
          waitCost s.decision := by
    intro t hlate houtside hdecision
    have : (t.head maxSteps 0 .start hooks.answers).cost maxSteps ≤ _ := head_cost t 0 .start _
    rw [hlate, houtside, hdecision] at this
    omega
  unfold received
  dsimp only
  split
  · exact hhead _ rfl rfl rfl
  · split
    · exact hhead _ rfl rfl rfl
    · refine (caught_cost _).trans_lt ?_
      show 3 + s.outsideCost + waitCost s.decision < _
      omega

theorem decide_cost [HostPlatform] (s : LoopState) (step : ℕ) (candidate : AgentTurnCandidate)
    (hooks : LoopHooks) : (s.decide step candidate hooks).cost maxSteps <
      5 * (maxSteps - step) + 7 + (if s.late.isSome then 1 else 0) + s.outsideCost +
        waitCost s.decision := by
  have hfinish : ∀ (t : LoopState) (outcome : ExecutionResultStatus) (report : LoopReport),
      t.outsideCost = s.outsideCost → t.decision = s.decision →
        (t.finish outcome report).cost maxSteps < 5 * (maxSteps - step) + 7 +
          (if s.late.isSome then 1 else 0) + s.outsideCost + waitCost s.decision := by
    intro t outcome report houtside hdecision
    refine (finish_cost t outcome report).trans_lt ?_
    rw [houtside, hdecision]
    omega
  have hcaught : ∀ t : LoopState, t.outsideCost = s.outsideCost → t.decision = s.decision →
      t.caught.cost maxSteps < 5 * (maxSteps - step) + 7 +
        (if s.late.isSome then 1 else 0) + s.outsideCost + waitCost s.decision := by
    intro t houtside hdecision
    unfold caught
    split
    · exact hfinish t _ _ houtside hdecision
    · exact hfinish t _ _ houtside hdecision
  unfold decide
  cases parseAgentTurnDecision candidate with
  | none => exact hfinish s _ _ rfl rfl
  | some decision =>
      cases decision with
      | complete output metadata => exact hfinish s _ _ rfl rfl
      | fail error metadata => exact hfinish s _ _ rfl rfl
      | escalate reason metadata =>
          dsimp only
          split
          · exact hfinish _ _ _ rfl rfl
          · exact hcaught s rfl rfl
      | toolCall call declared =>
          dsimp only
          split
          · exact hfinish s _ _ rfl rfl
          · unfold invoke
            cases hooks.answers with
            | true =>
                show 5 * (maxSteps - step) + 6 + (if s.late.isSome then 1 else 0) + s.outsideCost +
                  waitCost s.decision < _
                omega
            | false => exact hcaught _ rfl rfl

theorem answered_cost (s : LoopState) (step : ℕ) (result : ToolResult) (answers : Bool) :
    (s.answered maxSteps step result answers).cost maxSteps <
      5 * (maxSteps - step) + 5 + (if s.late.isSome then 1 else 0) + s.outsideCost +
        waitCost s.decision := by
  have hlimit : max 3 (if step + 1 < maxSteps then 5 * (maxSteps - (step + 1)) + 9 else 0) <
      5 * (maxSteps - step) + 5 := by
    split <;> omega
  unfold answered
  split
  · refine (caught_cost s).trans_lt ?_
    omega
  · refine (head_cost s (step + 1) _ answers).trans_lt ?_
    omega

theorem cost_eq {point : LoopPoint} (hpoint : s.point = point) :
    s.cost maxSteps = pointCost maxSteps point + (if s.late.isSome then 1 else 0) + s.outsideCost +
      waitCost s.decision := by
  unfold cost
  rw [hpoint]

theorem run_cost {s' : LoopState} (hpoint : s.point = .fresh) {opens : Bool}
    (hs' : (if opens then { s with opening := some (.start s.signal), point := .opening }
      else s.caught) = s') : s'.cost maxSteps < s.cost maxSteps := by
  rw [cost_eq hpoint, ← hs']
  cases opens with
  | true =>
      have hstart : waitCost (some (Race.start s.signal : Race AgentTurnSession)) ≤ 2 :=
        waitCost_start _
      show 5 * maxSteps + 10 + (if s.late.isSome then 1 else 0) +
        ((if s.signal then 0 else 1) + (if s.draining = some false then 1 else 0) +
          waitCost (some (Race.start s.signal))) + waitCost s.decision <
        5 * maxSteps + 13 + (if s.late.isSome then 1 else 0) +
          ((if s.signal then 0 else 1) + (if s.draining = some false then 1 else 0) +
            waitCost s.opening) + waitCost s.decision
      omega
  | false =>
      refine (caught_cost s).trans_lt ?_
      show _ < 5 * maxSteps + 13 + _ + _ + _
      omega

theorem resumeOpened_cost {s' : LoopState} {hooks : LoopHooks}
    (h : s.resumeOpened maxSteps hooks = some s') : s'.cost maxSteps < s.cost maxSteps := by
  unfold resumeOpened at h
  split at h
  · next session hpoint hwaited =>
      rw [cost_eq hpoint, ← Option.some.inj h]
      exact received_cost s session hooks
  · next hpoint _ =>
      rw [cost_eq hpoint, ← Option.some.inj h]
      refine (caught_cost s).trans_lt ?_
      show _ < 5 * maxSteps + 10 + _ + _ + _
      omega
  · cases h

theorem resumeDecided_cost [HostPlatform] {s' : LoopState} {hooks : LoopHooks}
    (h : s.resumeDecided hooks = some s') : s'.cost maxSteps < s.cost maxSteps := by
  unfold resumeDecided at h
  split at h
  · next step candidate hpoint hwaited =>
      rw [cost_eq hpoint, ← Option.some.inj h]
      exact decide_cost s step candidate hooks
  · next hpoint _ =>
      rw [cost_eq hpoint, ← Option.some.inj h]
      refine (caught_cost s).trans_lt ?_
      show _ < 5 * (maxSteps - _) + 7 + _ + _ + _
      omega
  · cases h

theorem resumeCalled_cost {s' : LoopState} {hooks : LoopHooks}
    (h : s.resumeCalled maxSteps hooks = some s') : s'.cost maxSteps < s.cost maxSteps := by
  unfold resumeCalled at h
  split at h
  · next step result hpoint =>
      rw [cost_eq hpoint, ← Option.some.inj h]
      exact answered_cost s step result hooks.answers
  · next hpoint =>
      rw [cost_eq hpoint, ← Option.some.inj h]
      refine (caught_cost s).trans_lt ?_
      show _ < 5 * (maxSteps - _) + 5 + _ + _ + _
      omega
  · cases h

theorem reactLate_cost {s' : LoopState} (h : s.reactLate = some s') :
    s'.cost maxSteps < s.cost maxSteps := by
  have hless : ∀ t : LoopState, t.late = none → t.point = s.point → t.outsideCost = s.outsideCost →
      t.decision = s.decision → s.late.isSome → t.cost maxSteps < s.cost maxSteps := by
    intro t hlate hpoint houtside hdecision hsome
    rw [cost_eq hpoint, cost_eq rfl, hlate, houtside, hdecision, if_pos hsome]
    show pointCost maxSteps s.point + 0 + s.outsideCost + waitCost s.decision < _
    omega
  unfold reactLate at h
  split at h
  · next session hlate _ =>
      rw [← Option.some.inj h]
      split
      · exact hless _ rfl rfl rfl rfl (hlate ▸ rfl)
      · exact hless _ rfl rfl rfl rfl (hlate ▸ rfl)
  · next hlate _ =>
      rw [← Option.some.inj h]
      exact hless _ rfl rfl rfl rfl (hlate ▸ rfl)
  · cases h

theorem opening_cost {race next : Race AgentTurnSession} (hrace : s.opening = some race)
    (hless : waitCost (some next) < waitCost (some race)) :
    ({ s with opening := some next } : LoopState).cost maxSteps < s.cost maxSteps := by
  have houtside : ({ s with opening := some next } : LoopState).outsideCost < s.outsideCost := by
    unfold outsideCost
    rw [hrace]
    exact Nat.add_lt_add_left hless _
  exact Nat.add_lt_add_right (Nat.add_lt_add_left houtside _) _

theorem decision_cost {s' : LoopState} {race next : Race AgentTurnCandidate}
    (hrace : s.decision = some race) (hless : waitCost (some next) < waitCost (some race))
    (hpoint : s'.point = s.point) (hlate : s'.late = s.late)
    (houtside : s'.outsideCost = s.outsideCost) (hdecision : s'.decision = some next) :
    s'.cost maxSteps < s.cost maxSteps := by
  unfold cost
  rw [hpoint, hlate, houtside, hdecision, hrace]
  exact Nat.add_lt_add_left hless _

theorem point_cost {s' : LoopState} (hlate : s'.late = s.late)
    (houtside : s'.outsideCost = s.outsideCost) (hdecision : s'.decision = s.decision)
    (hless : pointCost maxSteps s'.point < pointCost maxSteps s.point) :
    s'.cost maxSteps < s.cost maxSteps := by
  unfold cost
  rw [hlate, houtside, hdecision]
  exact Nat.add_lt_add_right (Nat.add_lt_add_right (Nat.add_lt_add_right hless _) _) _

/-- **Every step costs.** -/
theorem step_cost [HostPlatform] (s : LoopState) (label : LoopLabel) (s' : LoopState)
    (hstep : s.step maxSteps label = some s') : s'.cost maxSteps < s.cost maxSteps := by
  cases label with
  | run opens =>
      simp only [step] at hstep
      split at hstep
      · next hpoint => exact run_cost hpoint (Option.some.inj hstep)
      · cases hstep
  | signalFires =>
      simp only [step] at hstep
      split at hstep
      · cases hstep
      · next hsignal =>
          rw [← Option.some.inj hstep]
          -- the signal is spent, and a wait that it cuts short costs no more
          have hopening := waitCost_abandon s.opening
          have hdecision := waitCost_abandon s.decision
          show pointCost maxSteps s.point + (if s.late.isSome then 1 else 0) +
            (0 + (if s.draining = some false then 1 else 0) +
              waitCost (s.opening.map Race.abandon)) + waitCost (s.decision.map Race.abandon) <
            pointCost maxSteps s.point + (if s.late.isSome then 1 else 0) +
              ((if s.signal then 0 else 1) + (if s.draining = some false then 1 else 0) +
                waitCost s.opening) + waitCost s.decision
          rw [if_neg hsignal]
          omega
  | drainingFires =>
      simp only [step] at hstep
      split at hstep
      · next hdraining =>
          rw [← Option.some.inj hstep]
          show pointCost maxSteps s.point + (if s.late.isSome then 1 else 0) +
            ((if s.signal then 0 else 1) + 0 + waitCost s.opening) + waitCost s.decision <
            pointCost maxSteps s.point + (if s.late.isSome then 1 else 0) +
              ((if s.signal then 0 else 1) + (if s.draining = some false then 1 else 0) +
                waitCost s.opening) + waitCost s.decision
          rw [if_pos hdraining]
          omega
      · cases hstep
  | openingSettles result =>
      obtain ⟨next, hnext, rfl⟩ := Option.map_eq_some_iff.mp hstep
      obtain ⟨race, hrace, hsettle⟩ := Option.bind_eq_some_iff.mp hnext
      exact opening_cost hrace (waitCost_settle hsettle)
  | openingReacts =>
      obtain ⟨next, hnext, rfl⟩ := Option.map_eq_some_iff.mp hstep
      obtain ⟨race, hrace, hreact⟩ := Option.bind_eq_some_iff.mp hnext
      exact opening_cost hrace (waitCost_react hreact)
  | opened hooks => exact resumeOpened_cost hstep
  | decisionSettles result =>
      obtain ⟨next, hnext, rfl⟩ := Option.map_eq_some_iff.mp hstep
      obtain ⟨race, hrace, hsettle⟩ := Option.bind_eq_some_iff.mp hnext
      exact decision_cost hrace (waitCost_settle hsettle) rfl rfl rfl rfl
  | decisionReacts =>
      obtain ⟨next, hnext, rfl⟩ := Option.map_eq_some_iff.mp hstep
      obtain ⟨race, hrace, hreact⟩ := Option.bind_eq_some_iff.mp hnext
      exact decision_cost hrace (waitCost_react hreact) rfl rfl rfl rfl
  | decided hooks => exact resumeDecided_cost hstep
  | toolSettles result =>
      simp only [step] at hstep
      split at hstep
      · next n hpoint =>
          rw [← Option.some.inj hstep]
          refine point_cost rfl rfl rfl ?_
          rw [hpoint]
          exact Nat.lt_succ_self _
      · cases hstep
  | called hooks => exact resumeCalled_cost hstep
  | closeEnds =>
      simp only [step] at hstep
      split at hstep
      · next report hpoint =>
          rw [← Option.some.inj hstep]
          refine point_cost rfl rfl rfl ?_
          rw [hpoint]
          exact Nat.lt_succ_self _
      · cases hstep
  | closed =>
      simp only [step] at hstep
      split at hstep
      · next report hpoint =>
          rw [← Option.some.inj hstep]
          refine point_cost rfl rfl rfl ?_
          rw [hpoint]
          exact Nat.lt_succ_self _
      · cases hstep
  | lateReacts => exact reactLate_cost hstep

/-- A run takes no more steps than its limit allows. -/
theorem length_of_run [HostPlatform] {signal : Bool} {draining : Option Bool}
    {labels : List LoopLabel}
    (h : run (LoopState.step maxSteps) (initial signal draining) labels = some s) :
    labels.length ≤ 5 * maxSteps + 15 := by
  have hbound : labels.length + s.cost maxSteps ≤ (initial signal draining).cost maxSteps :=
    run_length_le step_cost h
  have hinitial : (initial signal draining).cost maxSteps ≤ 5 * maxSteps + 15 := by
    show 5 * maxSteps + 13 + 0 + ((if signal then 0 else 1) +
      (if draining = some false then 1 else 0) + 0) + 0 ≤ _
    split <;> split <;> omega
  omega

/-- A wait that is there goes on: it has ended, or its reaction is due, or its work may yet settle. -/
theorem wait_goes_on {α : Type} {race : Option (Race α)} (h : race.isSome) :
    (∃ waited, race.bind Race.waited = some waited) ∨ (race.bind Race.react).isSome ∨
      (race.bind fun race => race.settle (.error ())).isSome := by
  obtain ⟨race, rfl⟩ := Option.isSome_iff_exists.mp h
  rw [Option.bind_some, Option.bind_some, Option.bind_some]
  rcases Option.eq_none_or_eq_some race.waited with hwaited | hwaited
  · refine .inr ?_
    rcases Option.eq_none_or_eq_some race.work with hwork | ⟨result, hwork⟩
    · exact .inr (Option.isSome_iff_exists.mpr ⟨_, dif_pos hwork⟩)
    · let next : Race α := ⟨some result, some (.settled result), fun other hother => by
        rw [Waited.settled.inj (Option.some.inj hother)]⟩
      have hreact : race.react = some next :=
        Race.react_eq_some.mpr ⟨hwaited, result, hwork, rfl, rfl⟩
      exact .inl (Option.isSome_iff_exists.mpr ⟨next, hreact⟩)
  · exact .inl hwaited

/-- Where the loop is not at rest it goes on, or what it waits for may come, and no signal need fire. -/
theorem goes_on [HostPlatform] (h : s.Inv maxSteps) (hbusy : ∀ report, ¬ s.AtRest report) :
    ∃ label s', label ≠ .signalFires ∧ label ≠ .drainingFires ∧
      s.step maxSteps label = some s' := by
  have hstanding := h.standing
  unfold Standing at hstanding
  let hooks : LoopHooks := { annotates := true, answers := true }
  have hgo : ∀ label : LoopLabel, label ≠ .signalFires → label ≠ .drainingFires →
      (s.step maxSteps label).isSome → ∃ label s', label ≠ .signalFires ∧
        label ≠ .drainingFires ∧ s.step maxSteps label = some s' := by
    intro label hsignal hdraining hsome
    obtain ⟨s', hs'⟩ := Option.isSome_iff_exists.mp hsome
    exact ⟨label, s', hsignal, hdraining, hs'⟩
  cases hpoint : s.point with
  | fresh =>
      refine hgo (.run true) nofun nofun ?_
      simp only [step, hpoint]
      rfl
  | opening =>
      rw [hpoint] at hstanding
      rcases wait_goes_on hstanding.2.1 with ⟨waited, hended⟩ | hreacts | hsettles
      · obtain ⟨s', hs'⟩ : ∃ s', s.resumeOpened maxSteps hooks = some s' := by
          unfold resumeOpened
          rw [hpoint, hended]
          cases waited with
          | settled result => cases result <;> exact ⟨_, rfl⟩
          | abandoned => exact ⟨_, rfl⟩
        exact ⟨.opened hooks, s', nofun, nofun, hs'⟩
      · refine hgo .openingReacts nofun nofun ?_
        show ((s.opening.bind Race.react).map _).isSome
        rwa [Option.isSome_map]
      · refine hgo (.openingSettles (.error ())) nofun nofun ?_
        show ((s.opening.bind fun race => race.settle (.error ())).map _).isSome
        rwa [Option.isSome_map]
  | deciding step =>
      rw [hpoint] at hstanding
      rcases wait_goes_on hstanding.2.1 with ⟨waited, hended⟩ | hreacts | hsettles
      · obtain ⟨s', hs'⟩ : ∃ s', s.resumeDecided hooks = some s' := by
          unfold resumeDecided
          rw [hpoint, hended]
          cases waited with
          | settled result => cases result <;> exact ⟨_, rfl⟩
          | abandoned => exact ⟨_, rfl⟩
        exact ⟨.decided hooks, s', nofun, nofun, hs'⟩
      · refine hgo .decisionReacts nofun nofun ?_
        show ((s.decision.bind Race.react).map _).isSome
        rwa [Option.isSome_map]
      · refine hgo (.decisionSettles (.error ())) nofun nofun ?_
        show ((s.decision.bind fun race => race.settle (.error ())).map _).isSome
        rwa [Option.isSome_map]
  | calling step answer =>
      cases answer with
      | none =>
          refine hgo (.toolSettles (.error ())) nofun nofun ?_
          simp only [LoopState.step, hpoint]
          rfl
      | some result =>
          obtain ⟨s', hs'⟩ : ∃ s', s.resumeCalled maxSteps hooks = some s' := by
            unfold resumeCalled
            rw [hpoint]
            cases result <;> exact ⟨_, rfl⟩
          exact ⟨.called hooks, s', nofun, nofun, hs'⟩
  | closing report ended =>
      cases ended with
      | false =>
          refine hgo .closeEnds nofun nofun ?_
          simp only [step, hpoint]
          rfl
      | true =>
          refine hgo .closed nofun nofun ?_
          simp only [step, hpoint]
          rfl
  | reported report =>
      -- only a session that came late can be due
      have hdue : ¬ (s.late = none ∨ s.openingWork = none) := fun hrest => hbusy report ⟨hpoint, hrest⟩
      obtain ⟨outcome, hlate⟩ := Option.ne_none_iff_exists'.mp fun hnone => hdue (.inl hnone)
      obtain ⟨result, hwork⟩ := Option.ne_none_iff_exists'.mp fun hnone => hdue (.inr hnone)
      have hbind : s.opening.bind Race.work = some result := hwork
      obtain ⟨s', hs'⟩ : ∃ s', s.reactLate = some s' := by
        unfold reactLate
        rw [hlate, hbind]
        cases result <;> exact ⟨_, rfl⟩
      exact ⟨.lateReacts, s', nofun, nofun, hs'⟩

/-! ## The session of a turn -/

/-- What a run of the loop has done with its session, at any moment of it. -/
structure SessionKept [HostPlatform] (maxSteps : ℕ) (s : LoopState) : Prop where
  closedAtMostOnce : s.closes.length ≤ 1
  /-- Once nothing is due, a session that came, in time or late, has been closed, and once. -/
  closedOnce : ∀ report session, s.AtRest report → s.openedSession = some session →
    session.closable = true → s.closes = [report.status]
  /-- The close tells the outcome that the run reports. -/
  closedWith : ∀ report outcome, s.point = .reported report → outcome ∈ s.closes →
    outcome = report.status
  /-- Nothing is asked after a close or a drain, nor while a decision is outstanding. -/
  askedFreely : WrittenUnder AskedFreely s.log
  withinLimit : asks s.log ≤ maxSteps
  /-- Short of rest, the loop goes on, or what it waits for may come. -/
  goesOn : (∃ report, s.AtRest report) ∨ ∃ label s', label ≠ .signalFires ∧
    label ≠ .drainingFires ∧ s.step maxSteps label = some s'

theorem closesOf_length (session : AgentTurnSession) (outcome : ExecutionResultStatus) :
    (closesOf session outcome).length ≤ 1 := by
  unfold closesOf
  split
  · exact le_refl 1
  · exact Nat.zero_le 1

theorem mem_closesOf {session : AgentTurnSession} {outcome other : ExecutionResultStatus}
    (h : other ∈ closesOf session outcome) : other = outcome := by
  unfold closesOf at h
  split at h
  · exact List.mem_singleton.mp h
  · cases h

theorem Ended.closes_length {report : LoopReport} (h : s.Ended report) : s.closes.length ≤ 1 := by
  cases h with
  | closed session _ _ closes => exact closes ▸ closesOf_length session _
  | nothing _ _ closes => exact closes ▸ Nat.zero_le 1
  | awaited _ _ closes => exact closes ▸ Nat.zero_le 1

theorem Ended.closed_with {report : LoopReport} (h : s.Ended report)
    {outcome : ExecutionResultStatus} (hin : outcome ∈ s.closes) : outcome = report.status := by
  cases h with
  | closed session _ _ closes => exact mem_closesOf (closes ▸ hin)
  | nothing _ _ closes => exact absurd (closes ▸ hin) List.not_mem_nil
  | awaited _ _ closes => exact absurd (closes ▸ hin) List.not_mem_nil

theorem Ended.closed_once {report : LoopReport} (h : s.Ended report)
    (hrest : s.late = none ∨ s.openingWork = none) {session : AgentTurnSession}
    (hopened : s.openedSession = some session) (hclosable : session.closable = true) :
    s.closes = [report.status] := by
  have hwork : s.openingWork = some (.ok session) := by
    obtain ⟨result, hresult, hok⟩ := Option.bind_eq_some_iff.mp hopened
    cases result with
    | error e => cases hok
    | ok other => rw [hresult, Option.some.inj hok]
  cases h with
  | closed other opened _ closes =>
      obtain rfl : other = session := Option.some.inj (opened.symm.trans hopened)
      rw [closes, closesOf, if_pos hclosable]
  | nothing opening _ _ =>
      rcases opening with hnone | herror
      · unfold openingWork at hwork
        rw [hnone] at hwork
        cases hwork
      · cases hwork.symm.trans herror
  | awaited _ late _ =>
      rcases hrest with hnone | hnone
      · cases hnone.symm.trans late
      · cases hnone.symm.trans hwork

theorem Inv.sessionKept [HostPlatform] (h : s.Inv maxSteps) : s.SessionKept maxSteps := by
  have hended : ∀ report, s.point = .reported report → s.Ended report := by
    intro report hpoint
    have hstanding := h.standing
    unfold Standing at hstanding
    rw [hpoint] at hstanding
    exact hstanding
  refine ⟨?_, ?_, ?_, h.logged.free, h.logged.budget, ?_⟩
  · have hstanding := h.standing
    unfold Standing at hstanding
    split at hstanding
    · exact hstanding.1.unclosed ▸ Nat.zero_le 1
    · exact hstanding.1.unclosed ▸ Nat.zero_le 1
    · exact hstanding.1.unclosed ▸ Nat.zero_le 1
    · exact hstanding.1.unclosed ▸ Nat.zero_le 1
    · exact hstanding.closes_length
    · exact hstanding.closes_length
  · intro report session hrest hopened hclosable
    exact (hended report hrest.1).closed_once hrest.2 hopened hclosable
  · intro report outcome hpoint hin
    exact (hended report hpoint).closed_with hin
  · by_cases hrest : ∃ report, s.AtRest report
    · exact .inl hrest
    · exact .inr (goes_on h fun report hat => hrest ⟨report, hat⟩)

/-- Whatever happens in whatever order, the loop keeps its session so, and comes to an end. -/
theorem standardLoop_sessionKept [HostPlatform] (maxSteps : ℕ) (signal : Bool)
    (draining : Option Bool) (labels : List LoopLabel) (s : LoopState)
    (h : run (LoopState.step maxSteps) (initial signal draining) labels = some s) :
    s.SessionKept maxSteps ∧ labels.length ≤ 5 * maxSteps + 15 :=
  ⟨(inv_of_run h).sessionKept, length_of_run h⟩

end LoopState

/-- The signal fires while the driver is opening. The session comes after the turn has ended. -/
def Sample.lateOpening : List LoopLabel :=
  [.run true, .signalFires, .opened { annotates := true, answers := true }, .closed,
    .openingSettles (.ok { promptHash := none, closable := true }), .lateReacts]

open scoped SharedOS.Foundation.Reference in
theorem standardLoop_sessionKept_late :
    ∃ s, run (LoopState.step 3) (LoopState.initial false (some false)) Sample.lateOpening = some s ∧
      s.point = .reported .threw ∧ s.closes = [.cancelled] ∧ s.SessionKept 3 ∧
      Sample.lateOpening.length ≤ 5 * 3 + 15 :=
  ⟨_, rfl, rfl, rfl, LoopState.standardLoop_sessionKept 3 false (some false) Sample.lateOpening _ rfl⟩

end SharedOS.Runtime
