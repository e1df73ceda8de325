/-
SharedOS.Runtime.Callbacks — a turn whose host code calls its kernel back.

A tool handler is host code, and host code may hold a kernel: a handler entered for a mediated call
may itself call `invokeTool`, and so may the handler that call enters, and so may a resolver, a
parser, a port or the plugin. Such a call is none of the turn's mediated calls. The envelope does not
see it, counts nothing for it and classifies nothing by it.

`HostedTurn` is the executor's machine with those calls in it. A callback is a kernel operation of its
own, answered one request at a time between the steps of the turn, with whatever registry, authority
and signal its caller gave it. Its maker is the mediated call in whose handler the chain of calls
began, at whatever depth, or none where other code made it.

What is shown is when `retryable` keeps its promise over all of it. The promise counts every handler
entered while the turn was open, by a mediated call or by a callback (`HostedTurn.RetrySafe`). It is
kept in every run in which no handler whose work a second run repeats answers `denied`, and in which
none is entered by a callback, unless that callback was made for a call which already spoils the
retry (`NothingUnseen`). Both conditions are needed: `unseen_effect_retryable` is a turn failing each.

What is not in the machine is what host code does once the turn has its result.
-/
import SharedOS.Runtime.RetrySafety
import SharedOS.Runtime.Steps

namespace SharedOS.Runtime

open SharedOS.Foundation SharedOS.Contracts SharedOS.Core SharedOS.Kernel

section Hosted

variable [HostPlatform]

/-! ## The turn and its callbacks -/

/-- The handler a kernel operation is inside of. -/
def enteredNow : KernelM ToolResult → Option ToolHandler
  | .ask (.invokeHandler handler _ _) _ => some handler
  | _ => none

/-- The call's handler has been entered. -/
def MediatedCall.hasEntered (c : MediatedCall) : Bool :=
  !(entries c.trace).isEmpty || match c.stage with
    | .withKernel rest => (enteredNow rest).isSome
    | .refused _ | .watched .. | .accounted _ => false

/-- A call of `kernel.invokeTool` that is none of the turn's own. -/
structure Callback where
  /-- The mediated call in whose handler it was made, at whatever depth. -/
  maker : Option ℕ
  trace : KernelTrace
  rest : KernelM ToolResult

/-- The handler was entered on the callback's behalf: it has answered, or it is being asked. -/
def Callback.Entered (b : Callback) (handler : ToolHandler) : Prop :=
  handler ∈ entries b.trace ∨ enteredNow b.rest = some handler

/-- The operation goes one answer further. -/
def Callback.answered (b : Callback) (answers : (o : KernelOp) → o.Answer) : Option Callback :=
  match b.rest with
  | .ask o next =>
    some { b with trace := b.trace ++ [⟨o, answers o⟩], rest := next (answers o) }
  | _ => none

/-- A turn, and the calls back into a kernel made while it was open. -/
structure HostedTurn where
  turn : TurnState
  callbacks : List Callback

/-- Before the turn starts. -/
def HostedTurn.initial (turn : Turn) : HostedTurn where
  turn := .initial turn
  callbacks := []

/-- What may happen next. -/
inductive HostedLabel where
  | turn (label : TurnLabel)
  /-- Host code calls a kernel back: a handler of the mediated call named, or other code. -/
  | callsBack (maker : Option ℕ) (kernel : SharedOSKernel) (context : AccessContext)
      (call : ToolCall)
  | answers (j : ℕ) (answers : (o : KernelOp) → o.Answer)

/-- The code that would call back is running. -/
def HostedTurn.mayCallBack (s : HostedTurn) (maker : Option ℕ) : Bool :=
  s.turn.phase ≠ .closed && maker.all fun i =>
    s.turn.ledger.calls[i]?.any MediatedCall.hasEntered

/-- One step of the turn, or of a call back. -/
def hostedStep (turn : Turn) (s : HostedTurn) : HostedLabel → Option HostedTurn
  | .turn label => (executorStep turn s.turn label).map fun next => { s with turn := next }
  | .callsBack maker kernel context call =>
    if s.mayCallBack maker then
      let callback := { maker, trace := [], rest := invokeTool kernel context call }
      some { s with callbacks := s.callbacks ++ [callback] }
    else none
  | .answers j answers =>
    if s.turn.phase = .closed then none
    else s.callbacks[j]?.bind fun b => (b.answered answers).map fun b' =>
      { s with callbacks := s.callbacks.set j b' }

/-! ## The promise and its condition -/

/-- A handler was entered while the turn was open. -/
def HostedTurn.Entered (s : HostedTurn) (handler : ToolHandler) : Prop :=
  (∃ c ∈ s.turn.ledger.calls, c.Entered handler) ∨ ∃ b ∈ s.callbacks, b.Entered handler

/-- A turn that says it can be run again has entered no handler whose work a second run repeats,
whoever entered it. -/
def HostedTurn.RetrySafe (s : HostedTurn) : Prop :=
  ∀ result, s.turn.result = some result → result.ending.retryable = true →
    ∀ handler, s.Entered handler → isSafeToRepeat handler.definition = true

/-- The callback was made for a mediated call whose own handler, entered, spoils the retry. -/
def HostedTurn.MadeBySpoiler (s : HostedTurn) (b : Callback) : Prop :=
  ∃ i c, b.maker = some i ∧ s.turn.ledger.calls[i]? = some c ∧ c.hasEntered = true ∧
    c.repeatable = false

/-- No effect is about to go unseen: what a mediated handler answers is not a `denied` over work that
a second run repeats, and the answer a callback is given does not lead it into such a handler, where
its maker has not spoiled the retry already. -/
def NothingUnseen (s : HostedTurn) : HostedLabel → Prop
  | .turn label => DeniesBeforeEffect s.turn label
  | .callsBack .. => True
  | .answers j answers =>
    ∀ b b' handler, s.callbacks[j]? = some b → b.answered answers = some b' →
      enteredNow b'.rest = some handler → isSafeToRepeat handler.definition = false →
      s.MadeBySpoiler b

/-! ## Entering -/

section Entering

variable {c c' : MediatedCall} {b b' : Callback} {handler : ToolHandler}

omit [HostPlatform] in
theorem enteredNow_eq_some {rest : KernelM ToolResult} :
    enteredNow rest = some handler ↔
      ∃ context parsedCall next, rest = .ask (.invokeHandler handler context parsedCall) next := by
  constructor
  · intro h
    unfold enteredNow at h
    split at h
    · cases h
      exact ⟨_, _, _, rfl⟩
    · cases h
  · rintro ⟨_, _, _, rfl⟩
    rfl

omit [HostPlatform] in
theorem MediatedCall.hasEntered_iff : c.hasEntered = true ↔ ∃ handler, c.Entered handler := by
  unfold MediatedCall.hasEntered
  rw [Bool.or_eq_true, Bool.not_eq_true', List.isEmpty_eq_false_iff_exists_mem]
  constructor
  · rintro (⟨handler, hmem⟩ | hnow)
    · exact ⟨handler, .inl hmem⟩
    · split at hnow
      · next rest hstage =>
          obtain ⟨handler, hhandler⟩ := Option.isSome_iff_exists.mp hnow
          obtain ⟨context, parsedCall, next, rfl⟩ := enteredNow_eq_some.mp hhandler
          exact ⟨handler, .inr ⟨context, parsedCall, next, hstage⟩⟩
      all_goals cases hnow
  · rintro ⟨handler, hmem | ⟨context, parsedCall, next, hstage⟩⟩
    · exact .inl ⟨handler, hmem⟩
    · right
      rw [hstage]
      rfl

/-- `invokeTool` never begins inside a handler. -/
theorem enteredNow_invokeTool (kernel : SharedOSKernel) (context : AccessContext)
    (call : ToolCall) : enteredNow (invokeTool kernel context call) = none := by
  rw [Option.eq_none_iff_forall_ne_some]
  intro handler hentered
  obtain ⟨handed, parsedCall, next, hrest⟩ := enteredNow_eq_some.mp hentered
  have hasks : Program.Asks (invokeTool kernel context call) []
      (.invokeHandler handler handed parsedCall) := by
    rw [hrest]
    exact ⟨next, .here _⟩
  -- the signal is read just before a handler is entered
  obtain ⟨-, hauthorized⟩ := authorized_of_asks hasks
  cases hauthorized.unaborted

omit [HostPlatform] in
theorem entries_snoc (t : KernelTrace) (e : KernelEvent) :
    entries (t ++ [e]) = entries t ++ entries [e] := List.filterMap_append ..

omit [HostPlatform] in
/-- What an operation asks, and how it goes on from the answer. -/
theorem Callback.answered_eq_some {answers : (o : KernelOp) → o.Answer}
    (h : b.answered answers = some b') :
    ∃ o next, b.rest = .ask o next ∧
      b' = { b with trace := b.trace ++ [⟨o, answers o⟩], rest := next (answers o) } := by
  unfold Callback.answered at h
  split at h
  · next o next hrest => exact ⟨o, next, hrest, (Option.some.inj h).symm⟩
  · cases h

omit [HostPlatform] in
/-- What an answered operation has entered: what it had, or the handler it comes to now. -/
theorem Callback.Entered.of_answered {answers : (o : KernelOp) → o.Answer}
    (h : b.answered answers = some b') (hentered : b'.Entered handler) :
    b.Entered handler ∨ enteredNow b'.rest = some handler := by
  obtain ⟨o, next, hrest, rfl⟩ := Callback.answered_eq_some h
  rcases hentered with hmem | hnow
  · left
    rw [entries_snoc, List.mem_append] at hmem
    rcases hmem with hold | hnew
    · exact .inl hold
    · obtain ⟨context, parsedCall, answer, hmem⟩ := mem_entries.mp hnew
      cases List.mem_singleton.mp hmem
      exact .inr (enteredNow_eq_some.mpr ⟨_, _, _, hrest⟩)
  · exact .inr hnow

omit [HostPlatform] in
theorem Callback.maker_answered {answers : (o : KernelOp) → o.Answer}
    (h : b.answered answers = some b') : b'.maker = b.maker := by
  obtain ⟨o, next, -, rfl⟩ := Callback.answered_eq_some h
  rfl

end Entering

/-! ## What a step of the turn keeps of its calls -/

section Spoilers

variable {turn : Turn} {s s' : TurnState} {i : ℕ} {c c' : MediatedCall}

/-- Call `i` is there still, classified as it was, and what it entered stays entered. -/
def CallKept (s' : TurnState) (i : ℕ) (c : MediatedCall) : Prop :=
  ∃ c', s'.ledger.calls[i]? = some c' ∧ c'.repeatable = c.repeatable ∧
    (c.hasEntered = true → c'.hasEntered = true)

omit [HostPlatform] in
theorem CallKept.of_calls (hi : s.ledger.calls[i]? = some c)
    (h : s'.ledger.calls = s.ledger.calls) : CallKept s' i c :=
  ⟨c, h ▸ hi, rfl, id⟩

/-- One call further on: its class is as it was, and what it entered stays entered. -/
structure EntryKept (c c' : MediatedCall) : Prop where
  repeatable : c'.repeatable = c.repeatable
  entered : c.hasEntered = true → c'.hasEntered = true

omit [HostPlatform] in
/-- A call outside its handler keeps what it entered at every later stage. -/
theorem EntryKept.restage (houtside : ∀ rest, c.stage = .withKernel rest → enteredNow rest = none)
    (stage : CallStage) : EntryKept c { c with stage } where
  repeatable := rfl
  entered h := by
    obtain ⟨handler, hmem | ⟨context, parsedCall, next, hstage⟩⟩ := MediatedCall.hasEntered_iff.mp h
    · exact MediatedCall.hasEntered_iff.mpr ⟨handler, .inl hmem⟩
    · cases houtside _ hstage

omit [HostPlatform] in
theorem EntryKept.answered {o : KernelOp} {next : o.Answer → KernelM ToolResult}
    (hstage : c.stage = .withKernel (.ask o next)) (x : o.Answer) :
    EntryKept c { c with trace := c.trace ++ [⟨o, x⟩], stage := .withKernel (next x) } where
  repeatable := rfl
  entered h := by
    obtain ⟨handler, hmem | ⟨context, parsedCall, next', hinside⟩⟩ :=
      MediatedCall.hasEntered_iff.mp h
    · refine MediatedCall.hasEntered_iff.mpr ⟨handler, .inl ?_⟩
      rw [entries_snoc]
      exact List.mem_append_left _ hmem
    · -- the handler it was inside of has answered now
      rw [hstage] at hinside
      cases hinside
      refine MediatedCall.hasEntered_iff.mpr ⟨handler, .inl ?_⟩
      exact mem_entries.mpr ⟨context, parsedCall, x, List.mem_append_right _ List.mem_cons_self⟩

omit [HostPlatform] in
theorem EntryKept.handedBack (answer : Option (Except Thrown ToolResult)) :
    EntryKept c { c with answer } :=
  ⟨rfl, id⟩

/-- **A step of one call** keeps the class of the call and what it entered. -/
theorem callStep_calls {event : CallEvent} (h : callStep turn s i c event = some s') :
    ∃ c', s'.ledger.calls = s.ledger.calls.set i c' ∧ EntryKept c c' := by
  have hcalls : ∀ thrown, (s.watchAudit thrown).ledger = s.ledger := fun thrown =>
    ((Kept.refl s).watchAudit thrown).ledger
  have houtside {stage : CallStage} (hstage : c.stage = stage)
      (hnot : ∀ rest, stage = .withKernel rest → enteredNow rest = none) :
      ∀ rest, c.stage = .withKernel rest → enteredNow rest = none :=
    fun rest hrest => hnot rest (hstage.symm.trans hrest)
  cases event with
  | kernelAnswers surroundings =>
      simp only [callStep, TurnState.kernelAnswers] at h
      split at h
      · next hstage =>
          cases h
          exact ⟨_, rfl, .answered hstage _⟩
      · cases h
  | kernelSettles =>
      simp only [callStep, TurnState.kernelSettles] at h
      split at h
      · next hstage =>
          cases h
          refine ⟨_, rfl, .restage (houtside hstage ?_) _⟩
          rintro _ ⟨⟩
          rfl
      · next hstage =>
          cases h
          refine ⟨_, congrArg (fun l : CallLedger => l.calls.set i _) (hcalls _),
            .restage (houtside hstage ?_) _⟩
          rintro _ ⟨⟩
          rfl
      · cases h
  | accounts =>
      simp only [callStep, TurnState.accountFor] at h
      split at h
      · next hstage =>
          cases h
          exact ⟨_, rfl, .restage (houtside hstage nofun) _⟩
      · next thrown isOutage hstage =>
          cases h
          refine ⟨_, ?_, .restage (houtside hstage nofun) (.accounted (.error thrown))⟩
          split <;> rfl
      · cases h
  | delivers =>
      simp only [callStep, TurnState.deliver] at h
      split at h
      · split at h
        · cases h
          exact ⟨_, rfl, .handedBack _⟩
        · split at h
          · cases h
            exact ⟨_, rfl, .handedBack _⟩
          · cases h
            exact ⟨_, rfl, .handedBack _⟩
      · cases h
        exact ⟨_, rfl, .handedBack _⟩
      · cases h
        exact ⟨_, rfl, .handedBack _⟩
      · cases h
  | abandons =>
      simp only [callStep, TurnState.abandon] at h
      split at h
      · cases h
      · cases h
        exact ⟨_, rfl, .handedBack _⟩
      · cases h

/-- A call taken is added after those already there. -/
theorem RequestEffect.calls {call : ToolCall} {step : Option ℕ} {now : JsString}
    (h : RequestEffect turn s call step now s') :
    ∃ added, s'.ledger.calls = s.ledger.calls ++ [added] := by
  cases h with
  | @refused code message cause =>
      exact ⟨_, congrArg (· ++ [_]) (untouched_recordRefusedCall turn _ _ cause).calls⟩
  | admitted => exact ⟨_, rfl⟩

/-- **A step of the turn keeps every call it had**: its place, its class and what it entered. -/
theorem executorStep_callKept {label : TurnLabel} (hi : s.ledger.calls[i]? = some c)
    (h : executorStep turn s label = some s') : CallKept s' i c := by
  cases executorStep_effect h with
  | body _ hbody =>
      cases hbody with
      | silent hsilent => exact .of_calls hi hsilent.calls
      | ended hsilent => exact .of_calls hi hsilent.calls
  | silent hsilent => exact .of_calls hi hsilent.calls
  | neverBegan => exact .of_calls hi rfl
  | listed => exact .of_calls hi rfl
  | stated => exact .of_calls hi rfl
  | requested _ _ _ _ hrequest =>
      obtain ⟨added, hadded⟩ := hrequest.calls
      refine ⟨c, ?_, rfl, id⟩
      obtain ⟨hlt, -⟩ := List.getElem?_eq_some_iff.mp hi
      rw [hadded, List.getElem?_append_left hlt, hi]
  | @call k d event hk hcall =>
      obtain ⟨d', hd', hstep⟩ := Option.bind_eq_some_iff.mp h
      obtain ⟨d'', hset, hkept⟩ := callStep_calls hstep
      by_cases hsame : k = i
      · subst hsame
        obtain rfl : d' = c := Option.some.inj (hd'.symm.trans hi)
        obtain ⟨hlt, -⟩ := List.getElem?_eq_some_iff.mp hi
        exact ⟨d'', by rw [hset, List.getElem?_set_self hlt], hkept.repeatable, hkept.entered⟩
      · exact ⟨c, by rw [hset, List.getElem?_set_ne hsame, hi], rfl, id⟩

end Spoilers

/-! ## The invariant -/

/-- **The invariant of a turn with callbacks.** -/
structure HostedTurn.Sound (turn : Turn) (s : HostedTurn) : Prop where
  turn : Runtime.Sound turn s.turn
  callbacks : ∀ b ∈ s.callbacks, ∀ handler, b.Entered handler →
    isSafeToRepeat handler.definition = true ∨ s.MadeBySpoiler b

section Invariant

variable {turn : Turn} {s s' : HostedTurn}

omit [HostPlatform] in
/-- What spoiled the retry goes on spoiling it. -/
theorem HostedTurn.MadeBySpoiler.later {b b' : Callback} (h : s.MadeBySpoiler b)
    (hmaker : b'.maker = b.maker)
    (hkept : ∀ i c, s.turn.ledger.calls[i]? = some c → CallKept s'.turn i c) :
    s'.MadeBySpoiler b' := by
  obtain ⟨i, c, hb, hi, hentered, hclass⟩ := h
  obtain ⟨c', hi', hclass', hentered'⟩ := hkept i c hi
  exact ⟨i, c', hmaker.trans hb, hi', hentered' hentered, hclass'.trans hclass⟩

theorem hostedStep_sound (h : s.Sound turn) {label : HostedLabel} (hmeet : NothingUnseen s label)
    (hstep : hostedStep turn s label = some s') : s'.Sound turn := by
  cases label with
  | turn label =>
      obtain ⟨next, hnext, rfl⟩ := Option.map_eq_some_iff.mp hstep
      refine ⟨executorStep_sound h.turn hmeet hnext, fun b hb handler hentered => ?_⟩
      refine (h.callbacks b hb handler hentered).imp_right fun hspoiler => ?_
      exact hspoiler.later rfl fun i c hi => executorStep_callKept hi hnext
  | callsBack maker kernel context call =>
      unfold hostedStep at hstep
      dsimp only at hstep
      split at hstep
      · cases hstep
        refine ⟨h.turn, fun b hb handler hentered => ?_⟩
        rcases List.mem_append.mp hb with hold | hnew
        · exact h.callbacks b hold handler hentered
        · -- a call just made has entered nothing
          cases List.mem_singleton.mp hnew
          rcases hentered with hmem | hnow
          · cases hmem
          · cases (enteredNow_invokeTool kernel context call).symm.trans hnow
      · cases hstep
  | answers j answers =>
      unfold hostedStep at hstep
      dsimp only at hstep
      split at hstep
      · cases hstep
      · obtain ⟨b, hj, hanswered⟩ := Option.bind_eq_some_iff.mp hstep
        obtain ⟨b', hb', rfl⟩ := Option.map_eq_some_iff.mp hanswered
        refine ⟨h.turn, fun d hd handler hentered => ?_⟩
        rcases List.mem_or_eq_of_mem_set hd with hold | rfl
        · exact h.callbacks d hold handler hentered
        · have hspoils {d : Callback} (hmade : s.MadeBySpoiler b) (hmaker : d.maker = b.maker) :
              HostedTurn.MadeBySpoiler { s with callbacks := s.callbacks.set j d } d :=
            hmade.later hmaker fun i c hi => .of_calls hi rfl
          have hmaker := Callback.maker_answered hb'
          rcases hentered.of_answered hb' with hbefore | hnow
          · refine (h.callbacks b (List.mem_of_getElem? hj) handler hbefore).imp_right ?_
            exact fun hmade => hspoils hmade hmaker
          · by_cases hsafe : isSafeToRepeat handler.definition = true
            · exact .inl hsafe
            · right
              refine hspoils ?_ hmaker
              exact hmeet b _ handler hj hb' hnow (Bool.eq_false_iff.mpr hsafe)

theorem HostedTurn.sound_initial (turn : Turn) : (HostedTurn.initial turn).Sound turn :=
  ⟨Runtime.sound_initial turn, fun _ hb => absurd hb List.not_mem_nil⟩

/-- The invariant keeps the promise. -/
theorem HostedTurn.Sound.retrySafe (h : s.Sound turn) : s.RetrySafe := by
  intro result hresult hretry handler hentered
  rcases hentered with ⟨c, hc, hcall⟩ | ⟨b, hb, hback⟩
  · exact h.turn.retrySafe result hresult hretry c hc handler hcall
  · rcases h.callbacks b hb handler hback with hsafe | ⟨i, c, -, hi, hspoils, hclass⟩
    · exact hsafe
    · -- a retryable turn has no entered call that a second run repeats
      exfalso
      obtain ⟨⟨settled, hstage⟩, hentries⟩ :=
        (h.turn.ended result hresult).2 hretry c (List.mem_of_getElem? hi) hclass
      simp [MediatedCall.hasEntered, hentries, hstage] at hspoils

end Invariant

/-- **Retry safety.** In every run in which nothing goes unseen, whatever the plugin, the handlers,
the code that calls back, the kernel's ports, the signals and the timers do and in whatever order, a
turn that says it can be run again entered no handler whose work a second run repeats. -/
theorem retryable_repeats_nothing {turn : Turn} {labels : List HostedLabel} {s : HostedTurn}
    (hmeet : StepsMeet (hostedStep turn) NothingUnseen (.initial turn) labels)
    (hrun : run (hostedStep turn) (.initial turn) labels = some s) : s.RetrySafe := by
  have hsound : s.Sound turn := by
    apply run_invariant_where _ (HostedTurn.sound_initial turn) hmeet hrun
    intro s label s' hs hnothing hstep
    exact hostedStep_sound hs hnothing hstep
  exact hsound.retrySafe

end Hosted

/-! ## Turns that are called back -/

namespace Sample

open SharedOS.Kernel.Sample (reader kernel call)

/-- A tool that writes, under a name of its own. -/
def noter : ToolHandler :=
  { reader with definition := { reader.definition with name := "files.note", readWrite := .write } }

/-- What the call back is answered: a registry with the tool that writes. -/
def calledBack : (o : KernelOp) → o.Answer
  | .leasedRegistry _ => some (.ok ⟨[noter], List.nodup_singleton _⟩)
  | o => Kernel.Sample.surroundings o

/-- The reading tool's handler, once entered, calls the tool named, and the turn fails while that
call is inside its own handler. -/
def callingBack (tool : JsString) (answers : (o : KernelOp) → o.Answer) : List HostedLabel :=
  [.start none, .opened (.ok ()), .admitted (.ok none), .reached (.ok ()),
    .listed (.ok fun _ => true), .invoke call none "2026-03-01T00:00:00Z"].map .turn ++
  List.replicate 11 (.turn (.call 0 (.kernelAnswers Kernel.Sample.surroundings))) ++
  .callsBack (some 0) kernel Core.Sample.context { call with tool } ::
  List.replicate 11 (.answers 0 answers) ++
  List.replicate 7 (.turn (.call 0 (.kernelAnswers Kernel.Sample.surroundings))) ++
  [.call 0 .kernelSettles, .call 0 .accounts, .call 0 .delivers, .returned (.error .other)].map .turn

/-- Whether a callback's answer leads it into no handler but those safe to repeat. -/
def entersSafely (s : HostedTurn) : HostedLabel → Bool
  | .answers j answers =>
    (s.callbacks[j]?.bind fun b => b.answered answers).all fun b' =>
      (enteredNow b'.rest).all fun handler => isSafeToRepeat handler.definition
  | .turn _ | .callsBack .. => true

theorem nothingUnseen_of_entersSafely [HostPlatform] {s : HostedTurn} {j : ℕ} {answers : (o : KernelOp) → o.Answer}
    (h : entersSafely s (.answers j answers) = true) : NothingUnseen s (.answers j answers) := by
  intro b b' handler hj hb' hnow hwrites
  simp [entersSafely, hj, hb', hnow, hwrites] at h

/-- Every answer its turn is given comes from the surroundings in which the handler throws. -/
theorem of_mem_callingBack {tool : JsString} {answers surroundings : (o : KernelOp) → o.Answer} {i : ℕ}
    (h : .turn (.call i (.kernelAnswers surroundings)) ∈ callingBack tool answers) :
    surroundings = Kernel.Sample.surroundings := by
  simp [callingBack] at h
  exact h.2

theorem callingBack_nothingUnseen [HostPlatform] {tool : JsString}
    {answers : (o : KernelOp) → o.Answer} :
    ∀ label ∈ callingBack tool answers, ∀ s, entersSafely s label = true →
      NothingUnseen s label := by
  intro label hlabel s hsafe
  cases label with
  | callsBack => trivial
  | answers j answers => exact nothingUnseen_of_entersSafely hsafe
  | turn label =>
      cases label with
      | call i event =>
          cases event with
          | kernelAnswers surroundings =>
              obtain rfl := of_mem_callingBack hlabel
              intro _ c handler context parsedCall next candidate result _ _ _ hthrew
              cases hthrew
          | _ => trivial
      | _ => trivial

end Sample

open scoped SharedOS.Foundation.Reference in
/-- A handler of a tool that reads calls back a tool that reads. -/
theorem retryable_repeats_nothing_callingBack :
    ∃ s result, run (hostedStep (Sample.turn Kernel.Sample.reader))
        (.initial (Sample.turn Kernel.Sample.reader))
        (Sample.callingBack "files.read" Kernel.Sample.surroundings) = some s ∧
      s.turn.result = some result ∧ result.ending.retryable = true ∧
      (∃ b ∈ s.callbacks, b.Entered Kernel.Sample.reader) ∧ s.RetrySafe := by
  have hmeet : StepsMeet (hostedStep (Sample.turn Kernel.Sample.reader)) NothingUnseen
      (.initial (Sample.turn Kernel.Sample.reader))
      (Sample.callingBack "files.read" Kernel.Sample.surroundings) :=
    .of_pass rfl Sample.callingBack_nothingUnseen
  exact ⟨_, _, rfl, rfl, rfl, ⟨_, List.mem_cons_self, .inr rfl⟩, retryable_repeats_nothing hmeet rfl⟩

open scoped SharedOS.Foundation.Reference in
/-- Either part of the condition is needed. A writing tool's handler was entered and answered
`denied`; a reading tool's handler called a writing tool, and the envelope saw the reading one alone.
Both turns say they can be run again. -/
theorem unseen_effect_retryable :
    (∃ s, run (hostedStep (Sample.turn Sample.writer)) (.initial (Sample.turn Sample.writer))
        ((Sample.oneCall 17 Sample.refusing).map .turn) = some s ∧ ¬ s.RetrySafe) ∧
      ∃ s, run (hostedStep (Sample.turn Kernel.Sample.reader))
        (.initial (Sample.turn Kernel.Sample.reader))
        (Sample.callingBack "files.note" Sample.calledBack) = some s ∧ ¬ s.RetrySafe := by
  refine ⟨⟨_, rfl, fun hsafe => ?_⟩, ⟨_, rfl, fun hsafe => ?_⟩⟩
  · have hentered := hsafe _ rfl rfl Sample.writer (.inl ⟨_, List.mem_cons_self, .inl List.mem_cons_self⟩)
    exact absurd hentered nofun
  · have hentered := hsafe _ rfl rfl Sample.noter (.inr ⟨_, List.mem_cons_self, .inr rfl⟩)
    exact absurd hentered nofun

end SharedOS.Runtime
