/-
SharedOS.Adapters.Endings — how a frame ends a turn, and whether the turn can end with it.

A vendor's own strings become the code and the message of an error, and the contract of errors bounds
both. DeepSeek's verdict is looked up in a table by a vendor's string: a kind the table does not have is
read as a completion, unless it is a name every object inherits, and then the message is no text. An
ending is faithful just where none of this happens (`endingsFaithful_iff`).
-/
import SharedOS.Adapters.CallsCarried
import SharedOS.Runtime.Executor

namespace SharedOS.Adapters

open SharedOS.Foundation SharedOS.Contracts SharedOS.Mcp SharedOS.Runtime

/-! ## What an error contract takes -/

/-- A code with something in it, and not too long, once trimmed. -/
def CodeFits (code : JsString) : Prop := 1 ≤ (trim code).length ∧ (trim code).length ≤ 256

/-- A message with something in it, and not too long. -/
def MessageFits (message : JsString) : Prop := 1 ≤ message.length ∧ message.length ≤ 4096

instance (code : JsString) : Decidable (CodeFits code) :=
  inferInstanceAs (Decidable (_ ∧ _))

instance (message : JsString) : Decidable (MessageFits message) :=
  inferInstanceAs (Decidable (_ ∧ _))

/-- Every failure among the steps is an error the contract takes. -/
def Acceptable (steps : List HarnessStep) : Prop :=
  ∀ error, HarnessStep.failed error ∈ steps → (errorCandidateSchema error).isSome

/-- What the contract makes of an error: the code trimmed, the message as it is. -/
theorem errorCandidateSchema_eq {error : ErrorCandidate} {parsed : ProtocolError}
    (h : errorCandidateSchema error = some parsed) :
    parsed.code = trim error.code ∧ error.message = .text parsed.message ∧
      protocolErrorSchema parsed = some parsed := by
  obtain ⟨code, message, retryable, details⟩ := error
  cases message with
  | other => cases h
  | text message =>
      have hparsed : protocolErrorSchema { code, message, retryable, details } = some parsed := h
      refine ⟨?_, ?_, protocolErrorSchema_idem hparsed⟩
      · unfold protocolErrorSchema at hparsed
        simp only [Option.bind_eq_bind, Option.bind_eq_some_iff] at hparsed
        obtain ⟨_, hcode, _, _, _, _, heq⟩ := hparsed
        rw [← Option.some.inj heq]
        exact eq_trim_of_trimmedString hcode
      · unfold protocolErrorSchema at hparsed
        simp only [Option.bind_eq_bind, Option.bind_eq_some_iff] at hparsed
        obtain ⟨_, _, _, hmessage, _, _, heq⟩ := hparsed
        rw [← Option.some.inj heq]
        show ErrorMessage.text message = .text _
        exact congrArg ErrorMessage.text (boundedString_eq hmessage).1.symm

theorem errorCandidateSchema_isSome {code message : JsString} {retryable : Option Bool} :
    (errorCandidateSchema { code, message := .text message, retryable }).isSome ↔
      CodeFits code ∧ MessageFits message := by
  show (protocolErrorSchema { code, message, retryable, details := none }).isSome ↔ _
  unfold protocolErrorSchema identifierSchema trimmedString Contracts.boundedString CodeFits
    MessageFits
  dsimp only
  by_cases hcode : 1 ≤ (trim code).length ∧ (trim code).length ≤ 256
  · by_cases hmessage : 1 ≤ message.length ∧ message.length ≤ 4096
    · rw [if_pos hcode, if_pos hmessage]
      exact iff_of_true rfl ⟨hcode, hmessage⟩
    · rw [if_pos hcode, if_neg hmessage]
      exact ⟨nofun, fun h => absurd h.2 hmessage⟩
  · rw [if_neg hcode]
    exact ⟨nofun, fun h => absurd h.1 hcode⟩

theorem acceptable_nil : Acceptable [] := nofun

theorem acceptable_failed {error : ErrorCandidate} :
    Acceptable [.failed error] ↔ (errorCandidateSchema error).isSome := by
  constructor
  · exact fun h => h error (List.mem_singleton_self _)
  · intro h other hother
    rw [HarnessStep.failed.inj (List.mem_singleton.mp hother)]
    exact h

theorem acceptable_reported {code message : JsString} :
    Acceptable [reportedFailure code message] ↔ CodeFits code ∧ MessageFits message :=
  acceptable_failed.trans errorCandidateSchema_isSome

theorem acceptable_complete (output : Option Json) : Acceptable [.complete output] := by
  intro error h
  cases List.mem_singleton.mp h

theorem acceptable_toolCall (callId tool : JsString) (arguments : Json) :
    Acceptable [.toolCall callId tool arguments] := by
  intro error h
  cases List.mem_singleton.mp h

/-- The walk of a message's blocks fails nothing of its own. -/
theorem acceptable_content {content : List Json} {toolCall : Option (Json → Option HarnessStep)}
    (h : ∀ read, toolCall = some read → ∀ block error, read block ≠ some (.failed error)) :
    Acceptable (contentBlockSteps content toolCall) := by
  intro error hin
  obtain ⟨block, -, hblock⟩ := List.mem_flatMap.mp hin
  unfold blockSteps at hblock
  split at hblock
  · cases List.mem_singleton.mp hblock
  · rw [Option.mem_toList] at hblock
    obtain ⟨read, hread, hfailed⟩ := Option.bind_eq_some_iff.mp hblock
    exact absurd hfailed (h read hread block error)

theorem callStep_not_failed {kind argumentsKey : JsString} {block : Json}
    {error : ErrorCandidate} : callStep kind argumentsKey block ≠ some (.failed error) := by
  intro h
  obtain ⟨call, -, heq⟩ := Option.map_eq_some_iff.mp h
  cases heq

/-- A default stands in for what is not there, and what is there is judged. -/
theorem getD_iff {P : JsString → Prop} {value : Option JsString} {default_ : JsString}
    (h : P default_) : P (value.getD default_) ↔ ∀ s, value = some s → P s := by
  cases value with
  | none => exact iff_of_true h nofun
  | some s => exact ⟨fun hs t ht => Option.some.inj ht ▸ hs, fun hs => hs s rfl⟩

/-! ## The condition, vendor by vendor -/

namespace ClaudeCode

/-- A result that reports a failure does so in a code and a text that fit. -/
def EndingFits (frame : Json) : Prop :=
  ∀ result, resultSchema frame = some result →
    result.isError = some true ∨ result.subtype = some "error" →
    (∀ code, result.subtype = some code → CodeFits code) ∧
      ∀ message, result.result = some message → MessageFits message

theorem acceptable_iff (frame : Json) : Acceptable (interpret frame) ↔ EndingFits frame := by
  unfold interpret EndingFits
  cases hassistant : assistantSchema frame with
  | some content =>
      -- an assistant message is no result
      have hresult : resultSchema frame = none := by
        unfold assistantSchema at hassistant
        split at hassistant
        · next htype =>
            unfold resultSchema
            rw [hasText_other htype (by decide)]
            rfl
        · cases hassistant
      rw [hresult]
      refine iff_of_true (acceptable_content fun read hread block error => ?_) nofun
      rw [← Option.some.inj hread]
      exact callStep_not_failed
  | none =>
      dsimp only
      cases hresult : resultSchema frame with
      | none => exact iff_of_true acceptable_nil nofun
      | some result =>
          dsimp only
          unfold resultSteps
          by_cases hfailed : result.isError = some true ∨ result.subtype = some "error"
          · rw [if_pos hfailed]
            refine (acceptable_reported.trans (and_congr (getD_iff (P := CodeFits) ?_)
              (getD_iff (P := MessageFits) ?_))).trans ?_
            · decide
            · decide
            constructor
            · intro h other hother _
              rw [← Option.some.inj hother]
              exact h
            · exact fun h => h result rfl hfailed
          · rw [if_neg hfailed]
            refine iff_of_true (acceptable_complete _) fun other hother h => absurd h ?_
            rw [← Option.some.inj hother]
            exact hfailed

end ClaudeCode

namespace Pi

/-- A rejected command, and a reported error, are told in a text that fits. The command of a rejection
without a text of its own fits into the one that stands in for it. -/
def EndingFits (frame : Json) : Prop :=
  (∀ response, responseSchema frame = some response → response.success = false →
    (∀ message, response.error = some message → MessageFits message) ∧
      ∀ command, response.error = none → response.command = some command →
        command.length ≤ 4071) ∧
  ∀ message, errorSchema frame = some (some message) → MessageFits message

theorem rejectedMessage_fits (response : Response) : MessageFits (rejectedMessage response) ↔
    (∀ message, response.error = some message → MessageFits message) ∧
      ∀ command, response.error = none → response.command = some command →
        command.length ≤ 4071 := by
  obtain ⟨command, success, error⟩ := response
  unfold rejectedMessage
  cases error with
  | some message =>
      refine ⟨fun h => ⟨fun other hother => Option.some.inj hother ▸ h, nofun⟩, fun h => ?_⟩
      exact h.1 message rfl
  | none =>
      have hlength : ∀ c : JsString, ((("Pi rejected the " : JsString) ++ c) ++
          (" command." : JsString)).length = c.length + 25 := by
        intro c
        rw [List.length_append, List.length_append]
        show 16 + c.length + 9 = _
        omega
      show MessageFits ((("Pi rejected the " : JsString) ++ command.getD "requested") ++ _) ↔ _
      unfold MessageFits
      rw [hlength]
      cases command with
      | none => exact iff_of_true (by decide) ⟨nofun, nofun⟩
      | some text =>
          constructor
          · rintro ⟨-, hlong⟩
            refine ⟨nofun, fun other _ hother => ?_⟩
            rw [← Option.some.inj hother]
            show text.length ≤ 4071
            have : text.length + 25 ≤ 4096 := hlong
            omega
          · rintro ⟨-, hshort⟩
            have := hshort text rfl rfl
            show 1 ≤ text.length + 25 ∧ text.length + 25 ≤ 4096
            omega

theorem endingSteps_acceptable (frame : Json) : Acceptable (endingSteps frame) ↔
    ∀ message, errorSchema frame = some (some message) → MessageFits message := by
  unfold endingSteps
  cases herror : errorSchema frame with
  | some message =>
      refine (acceptable_reported.trans (and_congr_right fun _ =>
        getD_iff (P := MessageFits) ?_)).trans ?_
      · decide
      constructor
      · rintro ⟨-, h⟩ other hother
        exact h other (Option.some.inj hother)
      · exact fun h => ⟨by decide, fun other hother => h other (by rw [hother])⟩
  | none =>
      refine iff_of_true ?_ nofun
      dsimp only
      split
      · split
        · exact acceptable_nil
        · exact acceptable_complete _
      · exact acceptable_nil

theorem acceptable_iff (frame : Json) : Acceptable (interpret frame) ↔ EndingFits frame := by
  unfold interpret EndingFits
  cases hend : messageEndSchema frame with
  | some content =>
      -- a message at its end is neither a response nor an error
      have hother : responseSchema frame = none ∧ errorSchema frame = none := by
        unfold messageEndSchema at hend
        split at hend
        · next htype =>
            unfold responseSchema errorSchema
            rw [hasText_other htype (b := "response") (by decide),
              hasText_other htype (b := "error") (by decide)]
            exact ⟨rfl, rfl⟩
        · cases hend
      rw [hother.1, hother.2]
      refine iff_of_true (acceptable_content fun read hread block error => ?_) ⟨nofun, nofun⟩
      rw [← Option.some.inj hread]
      exact callStep_not_failed
  | none =>
      dsimp only
      cases hresponse : responseSchema frame with
      | none =>
          refine (endingSteps_acceptable frame).trans ?_
          exact ⟨fun h => ⟨nofun, h⟩, fun h => h.2⟩
      | some response =>
          -- a response is no error
          have hnone : errorSchema frame = none := by
            unfold responseSchema at hresponse
            split at hresponse
            · next htype =>
                unfold errorSchema
                rw [hasText_other htype (by decide)]
                rfl
            · cases hresponse
          dsimp only
          cases hsuccess : response.success with
          | true =>
              rw [if_pos rfl, endingSteps_acceptable, hnone]
              refine iff_of_true nofun ⟨fun other hother hfailed => ?_, nofun⟩
              rw [← Option.some.inj hother, hsuccess] at hfailed
              cases hfailed
          | false =>
              rw [if_neg Bool.false_ne_true, acceptable_reported, rejectedMessage_fits, hnone]
              constructor
              · rintro ⟨-, h⟩
                refine ⟨fun other hother _ => ?_, nofun⟩
                rw [← Option.some.inj hother]
                exact h
              · exact fun h => ⟨by decide, h.1 response rfl hsuccess⟩

end Pi

namespace Codex

/-- A reported failure is told in a code and a text that fit, and so is the reason of a failed turn,
which may be blank. -/
def EndingFits (frame : Json) : Prop :=
  (∀ failure, failureSchema frame = some failure →
    (∀ code, failure.error.bind ErrorFields.code = some code → CodeFits code) ∧
      ∀ message, (failure.error.bind ErrorFields.message).or failure.message = some message →
        MessageFits message) ∧
  ∀ reason, turnFailedSchema frame = some (some reason) → reason.length ≤ 4096 ∨ trim reason = []

theorem argumentsUnparseable_acceptable {message : JsString} (h : MessageFits message) :
    Acceptable [argumentsUnparseable message] :=
  acceptable_failed.mpr (errorCandidateSchema_isSome.mpr ⟨by decide, h⟩)

theorem failedTurnMessage_fits (reason : Option JsString) : MessageFits (failedTurnMessage reason) ↔
    ∀ text, reason = some text → text.length ≤ 4096 ∨ trim text = [] := by
  unfold failedTurnMessage
  cases reason with
  | none => exact iff_of_true (by decide) nofun
  | some text =>
      dsimp only
      by_cases hblank : trim text = []
      · rw [if_pos hblank]
        refine iff_of_true (by decide) fun other hother => ?_
        rw [← Option.some.inj hother]
        exact .inr hblank
      · rw [if_neg hblank]
        have hpos : 1 ≤ text.length := by
          cases text with
          | nil => exact absurd rfl hblank
          | cons u rest => exact Nat.succ_pos _
        constructor
        · intro h other hother
          rw [← Option.some.inj hother]
          exact .inl h.2
        · exact fun h => ⟨hpos, (h text rfl).resolve_right hblank⟩

/-- Only a frame of its own type is a failed turn. -/
theorem turnFailedSchema_other {frame : Json} {text : JsString}
    (htype : hasText "type" text frame = true) (hne : text ≠ "turn.failed") :
    turnFailedSchema frame = none := by
  unfold turnFailedSchema
  rw [hasText_other htype hne.symm]
  rfl

theorem cliSteps_acceptable (frame : Json) : Acceptable (cliSteps frame) ↔
    ∀ reason, turnFailedSchema frame = some (some reason) →
      reason.length ≤ 4096 ∨ trim reason = [] := by
  unfold cliSteps
  cases hprose : agentMessageItemSchema frame with
  | some text =>
      have hnone : turnFailedSchema frame = none := by
        unfold agentMessageItemSchema at hprose
        split at hprose
        · next htype => exact turnFailedSchema_other htype (by decide)
        · cases hprose
      rw [hnone]
      refine iff_of_true ?_ nofun
      dsimp only
      split
      · exact acceptable_nil
      · intro error h
        cases List.mem_singleton.mp h
  | none =>
      dsimp only
      by_cases hcompleted : hasText "type" "turn.completed" frame = true
      · rw [if_pos hcompleted, turnFailedSchema_other hcompleted (by decide)]
        exact iff_of_true (acceptable_complete _) nofun
      · rw [if_neg hcompleted]
        cases hreason : turnFailedSchema frame with
        | none => exact iff_of_true acceptable_nil nofun
        | some reason =>
            refine (acceptable_reported.trans (and_congr_right fun _ =>
              failedTurnMessage_fits reason)).trans ?_
            constructor
            · rintro ⟨-, h⟩ other hother
              exact h other (Option.some.inj hother)
            · exact fun h => ⟨by decide, fun other hother => h other (by rw [hother])⟩

/-- Only a frame of one of its two types is a failure. -/
theorem failureSchema_other {frame : Json} {text : JsString}
    (htype : hasText "type" text frame = true) (herror : text ≠ "error")
    (hfailed : text ≠ "response.failed") : failureSchema frame = none := by
  unfold failureSchema
  rw [hasText_other htype herror.symm, hasText_other htype hfailed.symm]
  rfl

theorem otherSteps_acceptable (frame : Json) :
    Acceptable (otherSteps frame) ↔ EndingFits frame := by
  unfold otherSteps EndingFits
  cases hfailure : failureSchema frame with
  | some failure =>
      have hnone : turnFailedSchema frame = none := by
        unfold failureSchema at hfailure
        split at hfailure
        · next htype =>
            rcases htype with htype | htype
            · exact turnFailedSchema_other htype (by decide)
            · exact turnFailedSchema_other htype (by decide)
        · cases hfailure
      rw [hnone]
      refine (acceptable_reported.trans (and_congr (getD_iff (P := CodeFits) (by decide))
        (getD_iff (P := MessageFits) (by decide)))).trans ?_
      constructor
      · refine fun h => ⟨fun other hother => ?_, nofun⟩
        rw [← Option.some.inj hother]
        exact h
      · exact fun h => h.1 failure rfl
  | none =>
      dsimp only
      cases hcompleted : completedSchema frame with
      | some text =>
          have hnone : turnFailedSchema frame = none := by
            unfold completedSchema at hcompleted
            split at hcompleted
            · next htype => exact turnFailedSchema_other htype (by decide)
            · cases hcompleted
          rw [hnone]
          exact iff_of_true (acceptable_complete _) ⟨nofun, nofun⟩
      | none =>
          dsimp only
          cases hmessage : messageSchema frame with
          | some content =>
              have hnone : turnFailedSchema frame = none := by
                unfold messageSchema at hmessage
                split at hmessage
                · next htype => exact turnFailedSchema_other htype (by decide)
                · cases hmessage
              rw [hnone]
              refine iff_of_true (fun error hin => ?_) ⟨nofun, nofun⟩
              obtain ⟨block, -, hblock⟩ := List.mem_filterMap.mp hin
              obtain ⟨text, -, heq⟩ := Option.map_eq_some_iff.mp hblock
              cases heq
          | none =>
              refine (cliSteps_acceptable frame).trans ?_
              exact ⟨fun h => ⟨nofun, h⟩, fun h => h.2⟩

theorem acceptable_iff (parse : JsString → Option Json) (frame : Json) :
    Acceptable (interpret parse frame) ↔ EndingFits frame := by
  unfold interpret
  cases hcall : functionCallSchema frame with
  | none => exact otherSteps_acceptable frame
  | some call =>
      -- a call is no ending
      have htype := (functionCallSchema_eq_some.mp hcall).1
      have hfits : EndingFits frame := by
        unfold EndingFits
        rw [failureSchema_other htype (by decide) (by decide),
          turnFailedSchema_other htype (by decide)]
        exact ⟨nofun, nofun⟩
      refine iff_of_true ?_ hfits
      dsimp only
      split
      · exact argumentsUnparseable_acceptable (by decide)
      · exact acceptable_toolCall _ _ _

end Codex

namespace DeepSeek

/-- The ending a frame carries: a `turn/end` event whose data keep to their schema. -/
def endedTurn (frame : Json) : Option TurnEnd :=
  (readEvent frame).bind fun event =>
    if event.type = "turn/end" then turnEndEventSchema event.data else none

/-- The kind is `completed`, or a failure the table has, or an inherited name with a message beside it.
A failure's own code and message fit. -/
def EndingFits (frame : Json) : Prop :=
  ∀ turnEnd, endedTurn frame = some turnEnd → turnEnd.kind = "completed" ∨
    ((turnEnd.kind ∈ turnEndFailures.map Prod.fst ∨ (turnEnd.kind ∈ inheritedNames ∧
        turnEnd.error.bind Codex.ErrorFields.message ≠ none)) ∧
      (∀ code, turnEnd.error.bind Codex.ErrorFields.code = some code → CodeFits code) ∧
      ∀ message, turnEnd.error.bind Codex.ErrorFields.message = some message → MessageFits message)

/-- `completed` is read as a completion, and every other kind as a failure. -/
def VerdictKept (turnEnd : TurnEnd) (steps : List HarnessStep) : Prop :=
  (turnEnd.kind = "completed" → steps = [.complete none]) ∧
    (turnEnd.kind ≠ "completed" → ∃ error, steps = [.failed error])

/-- A text of the table is under a key of it. -/
theorem lookup_mem {kind text : JsString} (h : turnEndFailures.lookup kind = some text) :
    kind ∈ turnEndFailures.map Prod.fst ∧ text ∈ turnEndFailures.map Prod.snd := by
  have hin : ∀ entries : List (JsString × JsString), entries.lookup kind = some text →
      kind ∈ entries.map Prod.fst ∧ text ∈ entries.map Prod.snd := by
    intro entries
    induction entries with
    | nil => nofun
    | cons entry rest ih =>
        obtain ⟨k, v⟩ := entry
        intro hlookup
        rw [List.lookup_cons] at hlookup
        split at hlookup
        · next hk =>
            rw [← Option.some.inj hlookup, beq_iff_eq.mp hk]
            exact ⟨List.mem_cons_self, List.mem_cons_self⟩
        · exact ⟨List.mem_cons_of_mem _ (ih hlookup).1, List.mem_cons_of_mem _ (ih hlookup).2⟩
  exact hin _ h

theorem lookup_none {kind : JsString} :
    turnEndFailures.lookup kind = none ↔ kind ∉ turnEndFailures.map Prod.fst := by
  rw [List.lookup_eq_none_iff, List.mem_map]
  constructor
  · rintro h ⟨entry, hentry, rfl⟩
    exact absurd (h entry hentry) (by simp)
  · intro h entry hentry
    refine bne_iff_ne.mpr ?_
    rintro rfl
    exact h ⟨entry, hentry, rfl⟩

/-- A kind is in the table, or names what every object inherits, or is read as nothing. -/
theorem turnEndFailure_cases (kind : JsString) :
    (kind ∈ turnEndFailures.map Prod.fst ∧ ∃ text ∈ turnEndFailures.map Prod.snd,
      turnEndFailure kind = some (.text text)) ∨
    (kind ∉ turnEndFailures.map Prod.fst ∧ kind ∈ inheritedNames ∧
      turnEndFailure kind = some .other) ∨
    (kind ∉ turnEndFailures.map Prod.fst ∧ kind ∉ inheritedNames ∧ turnEndFailure kind = none) := by
  unfold turnEndFailure
  cases hlookup : turnEndFailures.lookup kind with
  | some text => exact .inl ⟨(lookup_mem hlookup).1, text, (lookup_mem hlookup).2, rfl⟩
  | none =>
      by_cases hinherited : kind ∈ inheritedNames
      · exact .inr (.inl ⟨lookup_none.mp hlookup, hinherited, if_pos hinherited⟩)
      · exact .inr (.inr ⟨lookup_none.mp hlookup, hinherited, if_neg hinherited⟩)

theorem completed_read : turnEndFailure "completed" = none := by decide +kernel

theorem turnEndCode_fits {kind : JsString}
    (h : kind ∈ turnEndFailures.map Prod.fst ∨ kind ∈ inheritedNames) :
    CodeFits (turnEndCode kind) := by
  have htable : ∀ k ∈ turnEndFailures.map Prod.fst, CodeFits (turnEndCode k) := by decide +kernel
  have hinherited : ∀ k ∈ inheritedNames, CodeFits (turnEndCode k) := by decide +kernel
  exact h.elim (htable kind) (hinherited kind)

theorem turnEndText_fits : ∀ text ∈ turnEndFailures.map Prod.snd, MessageFits text := by
  decide +kernel

/-- The code of a failure fits where the one the vendor gave does. -/
theorem failureCode_fits {turnEnd : TurnEnd}
    (h : turnEnd.kind ∈ turnEndFailures.map Prod.fst ∨ turnEnd.kind ∈ inheritedNames) :
    CodeFits ((turnEnd.error.bind Codex.ErrorFields.code).getD (turnEndCode turnEnd.kind)) ↔
      ∀ code, turnEnd.error.bind Codex.ErrorFields.code = some code → CodeFits code :=
  getD_iff (P := CodeFits) (turnEndCode_fits h)

/-- The steps of an ending keep its verdict and are acceptable just where the ending fits. -/
theorem turnEndSteps_iff (turnEnd : TurnEnd) :
    (VerdictKept turnEnd (turnEndSteps turnEnd) ∧ Acceptable (turnEndSteps turnEnd)) ↔
      turnEnd.kind = "completed" ∨
        ((turnEnd.kind ∈ turnEndFailures.map Prod.fst ∨ (turnEnd.kind ∈ inheritedNames ∧
            turnEnd.error.bind Codex.ErrorFields.message ≠ none)) ∧
          (∀ code, turnEnd.error.bind Codex.ErrorFields.code = some code → CodeFits code) ∧
          ∀ message, turnEnd.error.bind Codex.ErrorFields.message = some message →
            MessageFits message) := by
  have hcompleted : turnEndFailure turnEnd.kind ≠ none → turnEnd.kind ≠ "completed" := by
    intro hsome heq
    exact hsome (heq ▸ completed_read)
  unfold turnEndSteps
  rcases turnEndFailure_cases turnEnd.kind with
    ⟨htable, text, htext, hread⟩ | ⟨htable, hinherited, hread⟩ | ⟨htable, hinherited, hread⟩
  · have hkind := hcompleted (by rw [hread]; exact nofun)
    rw [hread]
    have hverdict : ∀ error, VerdictKept turnEnd [.failed error] :=
      fun error => ⟨fun heq => absurd heq hkind, fun _ => ⟨error, rfl⟩⟩
    dsimp only
    rw [and_iff_right (hverdict _), or_iff_right hkind, and_iff_right (.inl htable), acceptable_failed]
    cases hmessage : turnEnd.error.bind Codex.ErrorFields.message with
    | some message =>
        refine errorCandidateSchema_isSome.trans (and_congr (failureCode_fits (.inl htable)) ?_)
        exact ⟨fun h other hother => Option.some.inj hother ▸ h, fun h => h message rfl⟩
    | none =>
        refine errorCandidateSchema_isSome.trans (and_congr (failureCode_fits (.inl htable)) ?_)
        exact iff_of_true (turnEndText_fits text htext) nofun
  · have hkind := hcompleted (by rw [hread]; exact nofun)
    rw [hread]
    have hverdict : ∀ error, VerdictKept turnEnd [.failed error] :=
      fun error => ⟨fun heq => absurd heq hkind, fun _ => ⟨error, rfl⟩⟩
    dsimp only
    rw [and_iff_right (hverdict _), or_iff_right hkind, acceptable_failed]
    cases hmessage : turnEnd.error.bind Codex.ErrorFields.message with
    | some message =>
        rw [and_iff_right (.inr ⟨hinherited, Option.some_ne_none message⟩)]
        refine errorCandidateSchema_isSome.trans
          (and_congr (failureCode_fits (.inr hinherited)) ?_)
        exact ⟨fun h other hother => Option.some.inj hother ▸ h, fun h => h message rfl⟩
    | none =>
        -- what the name inherits is no text
        refine iff_of_false (fun h => absurd h nofun) ?_
        rintro ⟨hmember | ⟨-, hnone⟩, -⟩
        · exact htable hmember
        · exact hnone rfl
  · rw [hread]
    dsimp only
    constructor
    · intro h
      refine .inl (Classical.byContradiction fun hkind => ?_)
      obtain ⟨error, herror⟩ := h.1.2 hkind
      cases herror
    · rintro (hkind | ⟨hmember | ⟨hmember, -⟩, -⟩)
      · exact ⟨⟨fun _ => rfl, fun h => absurd hkind h⟩, acceptable_complete none⟩
      · exact absurd hmember htable
      · exact absurd hmember hinherited

/-- What is no ending fails only a call, in a text of its own. -/
theorem eventSteps_acceptable (parse : JsString → Option Json) {event : SessionEvent}
    (h : event.type ≠ "turn/end") : Acceptable (eventSteps parse event) := by
  unfold eventSteps
  rw [if_neg h]
  split
  · split
    · exact acceptable_nil
    · unfold toolCallSteps
      split
      · exact acceptable_failed.mpr (errorCandidateSchema_isSome.mpr (by decide))
      · exact acceptable_toolCall _ _ _
  · split
    · split
      · exact acceptable_nil
      · exact acceptable_content nofun
    · exact acceptable_nil

theorem endingFits_iff (parse : JsString → Option Json) (frame : Json) :
    ((∀ turnEnd, endedTurn frame = some turnEnd → VerdictKept turnEnd (interpret parse frame)) ∧
      Acceptable (interpret parse frame)) ↔ EndingFits frame := by
  unfold interpret EndingFits endedTurn
  cases hevent : readEvent frame with
  | none => exact iff_of_true ⟨nofun, acceptable_nil⟩ nofun
  | some event =>
      rw [Option.bind_some]
      dsimp only
      by_cases htype : event.type = "turn/end"
      · rw [if_pos htype]
        have hsteps : eventSteps parse event =
            (turnEndEventSchema event.data).elim [] turnEndSteps := by
          unfold eventSteps
          rw [if_neg (htype ▸ by decide), if_neg (htype ▸ by decide), if_pos htype]
          cases turnEndEventSchema event.data with
          | none => rfl
          | some turnEnd => rfl
        rw [hsteps]
        cases turnEndEventSchema event.data with
        | none => exact iff_of_true ⟨nofun, acceptable_nil⟩ nofun
        | some turnEnd =>
            constructor
            · rintro ⟨hverdict, hacceptable⟩ other hother
              rw [← Option.some.inj hother]
              exact (turnEndSteps_iff turnEnd).mp ⟨hverdict turnEnd rfl, hacceptable⟩
            · intro h
              obtain ⟨hverdict, hacceptable⟩ := (turnEndSteps_iff turnEnd).mpr (h turnEnd rfl)
              exact ⟨fun other hother => Option.some.inj hother ▸ hverdict, hacceptable⟩
      · rw [if_neg htype]
        exact iff_of_true ⟨nofun, eventSteps_acceptable parse htype⟩ nofun

end DeepSeek

/-! ## All four -/

/-- The ending a vendor's frame carries fits the contract of errors, and DeepSeek's names a verdict. -/
def HarnessVendor.EndingFits : HarnessVendor → Json → Prop
  | .claudeCode => ClaudeCode.EndingFits
  | .pi => Pi.EndingFits
  | .codex => Codex.EndingFits
  | .deepseek => DeepSeek.EndingFits

section Standing

variable [HostPlatform]

/-- An error stands: the loop takes the failure it makes, and the executor ends the turn with it. -/
def ErrorStands (error : ErrorCandidate) : Prop :=
  ∃ parsed, errorCandidateSchema error = some parsed ∧ parsed.code = trim error.code ∧
    error.message = .text parsed.message ∧
    parseAgentTurnDecision (.fail error none) = some (.fail parsed none) ∧
    ∀ (turn : Turn) (s : TurnState), s.auditOutage = none →
      ∃ ended, ((s.returned turn (.ok (some (.fail parsed)))).result.map ExecutionResult.ending) =
          some (.failed ended) ∧
        ended.code = parsed.code ∧ ended.message = parsed.message

/-- Every ending read in a frame is the one it carries, and stands to the end of the turn. -/
structure EndingsFaithful (parse : JsString → Option Json) (vendor : HarnessVendor)
    (frame : Json) : Prop where
  verdict : vendor = .deepseek → ∀ turnEnd, DeepSeek.endedTurn frame = some turnEnd →
    DeepSeek.VerdictKept turnEnd (vendor.interpret parse frame)
  acceptable : Acceptable (vendor.interpret parse frame)
  standing : ∀ error, HarnessStep.failed error ∈ vendor.interpret parse frame → ErrorStands error

/-- An error the contract takes stands. -/
theorem errorStands_of_isSome {error : ErrorCandidate} (h : (errorCandidateSchema error).isSome) :
    ErrorStands error := by
  obtain ⟨parsed, hparsed⟩ := Option.isSome_iff_exists.mp h
  obtain ⟨hcode, hmessage, hidem⟩ := errorCandidateSchema_eq hparsed
  refine ⟨parsed, hparsed, hcode, hmessage, parseAgentTurnDecision_fail hparsed, ?_⟩
  intro turn s haudit
  -- the executor takes once more what the contract has already taken
  have houtcome : runtimeTurnOutcomeSchema (.fail parsed) = some (.fail parsed) := by
    show (protocolErrorSchema parsed).map RuntimeTurnOutcome.fail = _
    rw [hidem]
    rfl
  have hreturned : s.returned turn (.ok (some (.fail parsed))) =
      s.concluded turn (some (.fail parsed)) := by
    show (if s.auditOutage.isSome then _ else _) = _
    rw [haudit, if_neg (by decide), Option.bind_some, houtcome]
  rw [hreturned]
  refine ⟨_, rfl, ?_, ?_⟩
  · split <;> rfl
  · split <;> rfl

/-- The endings a frame carries are read as they are, and stand, just where they fit. -/
theorem endingsFaithful_iff (parse : JsString → Option Json) (vendor : HarnessVendor)
    (frame : Json) : EndingsFaithful parse vendor frame ↔ vendor.EndingFits frame := by
  have hstanding : EndingsFaithful parse vendor frame ↔
      (vendor = .deepseek → ∀ turnEnd, DeepSeek.endedTurn frame = some turnEnd →
        DeepSeek.VerdictKept turnEnd (vendor.interpret parse frame)) ∧
      Acceptable (vendor.interpret parse frame) :=
    ⟨fun h => ⟨h.verdict, h.acceptable⟩,
      fun h => ⟨h.1, h.2, fun error hin => errorStands_of_isSome (h.2 error hin)⟩⟩
  rw [hstanding]
  cases vendor with
  | claudeCode => exact (and_iff_right nofun).trans (ClaudeCode.acceptable_iff frame)
  | pi => exact (and_iff_right nofun).trans (Pi.acceptable_iff frame)
  | codex => exact (and_iff_right nofun).trans (Codex.acceptable_iff parse frame)
  | deepseek =>
      refine Iff.trans ?_ (DeepSeek.endingFits_iff parse frame)
      exact and_congr_left fun _ => forall_prop_of_true rfl

end Standing

/-! ## A kind that is not in the table -/

namespace Sample

/-- A turn that ran out of time, as an ending the table does not name. -/
def timedOut : Json :=
  .obj [("type", .str "turn/end"), ("data", .obj [("reason", .obj [("kind", .str "timeout")])])]

end Sample

open scoped SharedOS.Foundation.Reference in
/-- A kind other than `completed` is read as a completion. -/
theorem timeout_completes :
    (∃ turnEnd, DeepSeek.endedTurn Sample.timedOut = some turnEnd ∧ turnEnd.kind = "timeout") ∧
    (∀ parse, HarnessVendor.interpret parse .deepseek Sample.timedOut = [.complete none]) ∧
    ∀ parse, ¬ EndingsFaithful parse .deepseek Sample.timedOut := by
  have hended : DeepSeek.endedTurn Sample.timedOut = some { kind := "timeout", error := none } := rfl
  have hsteps : ∀ parse, HarnessVendor.interpret parse .deepseek Sample.timedOut =
      [.complete none] := fun _ => rfl
  refine ⟨⟨_, hended, rfl⟩, hsteps, fun parse h => ?_⟩
  obtain ⟨error, herror⟩ := (h.verdict rfl _ hended).2 (by decide)
  rw [hsteps parse] at herror
  cases herror

end SharedOS.Adapters
