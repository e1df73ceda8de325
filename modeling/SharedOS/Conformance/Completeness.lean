/-
SharedOS.Conformance.Completeness — what an execution record is missing, field by field.

A gap is required or expected. A record is usable when its schema accepts it and nothing required
is missing (`usable_iff`): every decision that was a policy decision names an authority state the
record has, no operation stands without a decision, and there are events to order it by.

What is expected and missing is reported and loses nothing. The same absence can be either: a turn
that decided nothing on any authority may have observed none, and a turn that did must have.

Each gap names its field by the path a reader would look it up under, and says why it matters. The
gaps are listed in the order of the source, required and expected together; `usable` looks at the
required ones, `complete` at all of them.
-/
import SharedOS.Conformance.Record

namespace SharedOS.Conformance

open SharedOS.Foundation SharedOS.Contracts

/-- Whether a record can be used without the field. -/
inductive CompletenessSeverity where
  | required
  | expected
  deriving DecidableEq

/-- One thing a record is missing. -/
structure CompletenessGap where
  field : JsString
  severity : CompletenessSeverity
  detail : JsString

/-- What a record is missing, and what that makes of it. -/
structure RecordCompleteness where
  complete : Bool
  usable : Bool
  gaps : List CompletenessGap

/-- A gap that must be closed. -/
def CompletenessGap.isRequired (gap : CompletenessGap) : Bool := gap.severity = .required

/-- What the schema library reports of a record the schema refuses: for each issue its path,
joined with dots, and its message. -/
class RecordIssues where
  issues : ExecutionRecord → List (JsString × JsString)

/-- Whether any decision was a policy decision. -/
def decidedOnAuthority (value : ExecutionRecord) : Bool :=
  value.execution.decisions.any fun decision => !decision.failClosed

/-- No authority state at all. Where a decision was made on policy, one is required. -/
def snapshotGaps (value : ExecutionRecord) : List CompletenessGap :=
  if value.authority.snapshots.length = 0 then
    [{ field := "authority.snapshots"
       severity := if decidedOnAuthority value then .required else .expected
       detail :=
        if decidedOnAuthority value then
          "No authority snapshot was observed, so no decision can be tied to the grants behind it."
        else "Authority was never established; every decision in this turn failed closed." }]
  else []

/-- Operations without any decision: nothing says they were mediated. -/
def unmediatedGaps (value : ExecutionRecord) : List CompletenessGap :=
  if value.execution.decisions.length = 0 ∧ 0 < value.execution.operations.length then
    [{ field := "execution.decisions"
       severity := .required
       detail := "Operations were mediated without a recorded authorization decision." }]
  else []

/-- `execution.decisions.${index}.authorityHash`. -/
def authorityHashField (index : ℕ) : JsString :=
  JsString.ofString "execution.decisions." ++ JsString.ofString (toString index) ++
    JsString.ofString ".authorityHash"

/-- What one decision leaves open about the authority behind it. -/
def decisionGaps (snapshots : List AuthoritySnapshotRecord) (decision : DecisionRecord)
    (index : ℕ) : List CompletenessGap :=
  match decision.authorityHash with
  | none =>
    if decision.failClosed then []
    else
      [{ field := authorityHashField index
         severity := .required
         detail := "A decision does not name the authority state it was made against." }]
  | some hash =>
    if snapshots.any fun snapshot => snapshot.hash = hash then []
    else
      [{ field := authorityHashField index
         severity := .required
         detail := "A decision names an authority state with no recorded snapshot." }]

/-- No events, so nothing orders what the turn did. -/
def eventGaps (value : ExecutionRecord) : List CompletenessGap :=
  if value.execution.events.length = 0 then
    [{ field := "execution.events"
       severity := .required
       detail := "The turn produced no execution events, so its ordering cannot be reconstructed." }]
  else []

/-- Evidence that is only expected when the run produced it. -/
def expectedGaps (value : ExecutionRecord) : List CompletenessGap :=
  (if value.state.before.isNone || value.state.after.isNone then
    [{ field := "state"
       severity := .expected
       detail := "Before and after state references are needed to attribute any world change." }]
  else []) ++
  (if value.cost.inputTokens.isNone && value.cost.outputTokens.isNone then
    [{ field := "cost.tokens"
       severity := .expected
       detail := "Token cost is unavailable; deterministic runtimes legitimately report none." }]
  else []) ++
  (if value.cost.infrastructureMs.isNone then
    [{ field := "cost.infrastructureMs"
       severity := .expected
       detail := "SharedOS-attributable time was not separated from total elapsed time." }]
  else [])

/-- The gaps of a record its schema accepts. -/
def recordGaps (value : ExecutionRecord) : List CompletenessGap :=
  snapshotGaps value ++ unmediatedGaps value ++
    (value.execution.decisions.zipIdx.flatMap fun entry =>
      decisionGaps value.authority.snapshots entry.1 entry.2) ++
    eventGaps value ++ expectedGaps value

section Platform

variable [HostPlatform] [RecordIssues]

/-- Report what an execution record is missing. -/
def checkRecordCompleteness (record : ExecutionRecord) : RecordCompleteness :=
  match executionRecordSchema record with
  | none =>
    { complete := false
      usable := false
      gaps := (RecordIssues.issues record).map fun issue =>
        { field := issue.1, severity := .required, detail := issue.2 } }
  | some value =>
    { complete := (recordGaps value).isEmpty
      usable := !(recordGaps value).any CompletenessGap.isRequired
      gaps := recordGaps value }

/-! ## When a record is usable -/

/-- What a usable record holds. -/
structure UsableEvidence (value : ExecutionRecord) : Prop where
  established : (∃ d ∈ value.execution.decisions, d.failClosed = false) →
    value.authority.snapshots ≠ []
  mediated : value.execution.operations ≠ [] → value.execution.decisions ≠ []
  named : ∀ d ∈ value.execution.decisions, d.failClosed = false → d.authorityHash ≠ none
  recorded : ∀ d ∈ value.execution.decisions, ∀ hash, d.authorityHash = some hash →
    ∃ s ∈ value.authority.snapshots, s.hash = hash
  ordered : value.execution.events ≠ []

omit [HostPlatform] [RecordIssues] in
theorem decisionGaps_none_required_iff {snapshots : List AuthoritySnapshotRecord}
    {decision : DecisionRecord} {index : ℕ} :
    (decisionGaps snapshots decision index).any CompletenessGap.isRequired = false ↔
      (decision.failClosed = false → decision.authorityHash ≠ none) ∧
      ∀ hash, decision.authorityHash = some hash → ∃ s ∈ snapshots, s.hash = hash := by
  unfold decisionGaps
  cases decision.authorityHash with
  | none => cases decision.failClosed <;> simp [CompletenessGap.isRequired]
  | some hash =>
      have hany : (snapshots.any fun snapshot => snapshot.hash = hash) = true ↔
          ∃ s ∈ snapshots, s.hash = hash := by
        simp only [List.any_eq_true, decide_eq_true_eq]
      dsimp only
      by_cases hrecorded : ∃ s ∈ snapshots, s.hash = hash
      · rw [if_pos (hany.mpr hrecorded)]
        simpa using hrecorded
      · rw [if_neg (hany.not.mpr hrecorded)]
        simpa [CompletenessGap.isRequired] using hrecorded

omit [HostPlatform] [RecordIssues] in
theorem expectedGaps_none_required (value : ExecutionRecord) :
    (expectedGaps value).any CompletenessGap.isRequired = false := by
  unfold expectedGaps
  rw [List.any_append, List.any_append]
  split <;> split <;> split <;> rfl

omit [HostPlatform] [RecordIssues] in
/-- **Nothing required is missing** from a record with evidence for every decision. -/
theorem recordGaps_none_required_iff {value : ExecutionRecord} :
    (recordGaps value).any CompletenessGap.isRequired = false ↔ UsableEvidence value := by
  have hsnapshots : (snapshotGaps value).any CompletenessGap.isRequired = false ↔
      ((∃ d ∈ value.execution.decisions, d.failClosed = false) →
        value.authority.snapshots ≠ []) := by
    unfold snapshotGaps
    by_cases hnone : value.authority.snapshots.length = 0
    · have hnil := List.length_eq_zero_iff.mp hnone
      cases hdecided : decidedOnAuthority value <;>
        simpa [hnil, CompletenessGap.isRequired, decidedOnAuthority] using hdecided
    · simp [hnone, List.length_eq_zero_iff.not.mp hnone]
  have hunmediated : (unmediatedGaps value).any CompletenessGap.isRequired = false ↔
      (value.execution.operations ≠ [] → value.execution.decisions ≠ []) := by
    unfold unmediatedGaps
    by_cases hboth : value.execution.decisions.length = 0 ∧ 0 < value.execution.operations.length
    · have hnil := List.length_eq_zero_iff.mp hboth.1
      have hsome := List.length_pos_iff.mp hboth.2
      simp [hnil, hsome, CompletenessGap.isRequired]
    · rw [if_neg hboth]
      simp only [List.any_nil, true_iff]
      intro hsome hnil
      exact hboth ⟨by rw [hnil, List.length_nil], List.length_pos_iff.mpr hsome⟩
  have hdecisions : ((value.execution.decisions.zipIdx.flatMap fun entry =>
      decisionGaps value.authority.snapshots entry.1 entry.2).any
        CompletenessGap.isRequired) = false ↔
      ∀ d ∈ value.execution.decisions, (d.failClosed = false → d.authorityHash ≠ none) ∧
        ∀ hash, d.authorityHash = some hash →
          ∃ s ∈ value.authority.snapshots, s.hash = hash := by
    rw [List.any_flatMap, List.any_eq_false]
    constructor
    · intro h d hd
      obtain ⟨i, hi, rfl⟩ := List.getElem_of_mem hd
      refine decisionGaps_none_required_iff.mp (Bool.eq_false_iff.mpr (h (_, i) ?_))
      exact List.mem_zipIdx_iff_getElem?.mpr (List.getElem?_eq_getElem hi)
    · intro h entry hentry
      have hd := List.mem_of_getElem? (List.mem_zipIdx_iff_getElem?.mp hentry)
      exact Bool.eq_false_iff.mp (decisionGaps_none_required_iff.mpr (h entry.1 hd))
  have hevents : (eventGaps value).any CompletenessGap.isRequired = false ↔
      value.execution.events ≠ [] := by
    unfold eventGaps
    cases value.execution.events <;> simp [CompletenessGap.isRequired]
  have hexpected := expectedGaps_none_required value
  unfold recordGaps
  simp only [List.any_append, Bool.or_eq_false_iff, hsnapshots, hunmediated, hdecisions, hevents,
    hexpected, and_true]
  constructor
  · rintro ⟨⟨⟨h₁, h₂⟩, h₃⟩, h₄⟩
    exact ⟨h₁, h₂, fun d hd => (h₃ d hd).1, fun d hd => (h₃ d hd).2, h₄⟩
  · rintro ⟨h₁, h₂, h₃, h₄, h₅⟩
    exact ⟨⟨⟨h₁, h₂⟩, fun d hd => ⟨h₃ d hd, h₄ d hd⟩⟩, h₅⟩

/-- **When a record is usable.** -/
theorem usable_iff {record : ExecutionRecord} :
    (checkRecordCompleteness record).usable = true ↔
      ∃ value, executionRecordSchema record = some value ∧ UsableEvidence value := by
  unfold checkRecordCompleteness
  cases executionRecordSchema record with
  | none => simp
  | some value =>
      show (!(recordGaps value).any CompletenessGap.isRequired) = true ↔ _
      rw [Bool.not_eq_true', recordGaps_none_required_iff]
      simp

end Platform

end SharedOS.Conformance
