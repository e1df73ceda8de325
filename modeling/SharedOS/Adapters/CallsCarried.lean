/-
SharedOS.Adapters.CallsCarried — every call a frame carries, and the steps it is read as.

What a frame carries is read off its envelope, whatever the fields of a call hold. A codec answers a
call with a step only where the call keeps to its schema: the block that does not is taken for one the
codec does not know, and a frame that does not is taken for progress. So calls are kept just where each
is well formed (`callsKept_iff`).
-/
import SharedOS.Adapters.Protocols

namespace SharedOS.Adapters

open SharedOS.Foundation SharedOS.Contracts SharedOS.Mcp SharedOS.Runtime

/-! ## What a frame carries -/

/-- The blocks of a message, where its content is an array. -/
def contentBlocks (message : Json) : List Json :=
  match field "content" message with
  | some (.arr blocks) => blocks
  | _ => []

namespace HarnessVendor

/-- The kind of the content blocks that are calls. -/
def blockKind : HarnessVendor → JsString
  | .claudeCode => "tool_use"
  | .pi => "toolCall"
  | .codex | .deepseek => ""

/-- The assistant message a frame is the envelope of. -/
def assistantMessage : HarnessVendor → Json → Option Json
  | .claudeCode, frame => if hasText "type" "assistant" frame then field "message" frame else none
  | .pi, frame =>
    if hasText "type" "message_end" frame then
      (field "message" frame).filter (hasText "role" "assistant")
    else none
  | .codex, _ | .deepseek, _ => none

/-- The calls a frame carries, in order. -/
def carriedCalls : HarnessVendor → Json → List Json
  | .codex, frame => if hasText "type" "function_call" frame then [frame] else []
  | .deepseek, frame =>
    match DeepSeek.readEvent frame with
    | some event => if event.type = "tool/call" then [event.data] else []
    | none => []
  | vendor, frame =>
    match vendor.assistantMessage frame with
    | some message => (contentBlocks message).filter (hasText "type" vendor.blockKind)
    | none => []

/-- The key a vendor writes the id of a call under. -/
def idKey : HarnessVendor → JsString
  | .claudeCode | .pi => "id"
  | .codex => "call_id"
  | .deepseek => "callId"

/-- The key a vendor writes the arguments of a call under. -/
def argumentsKey : HarnessVendor → JsString
  | .claudeCode => "input"
  | .pi | .codex | .deepseek => "arguments"

/-- The arguments a call carries, where they can be read. -/
def carriedArguments (parse : JsString → Option Json) (vendor : HarnessVendor) (call : Json) :
    Option Json :=
  match vendor with
  | .claudeCode | .pi =>
    match field vendor.argumentsKey call with
    | none => some (.obj [])
    | some arguments => recordSchema arguments
  | .codex | .deepseek =>
    ((field vendor.argumentsKey call).bind stringSchema).bind (parseToolArguments parse)

end HarnessVendor

/-- The step answers the call: a release of it under its own id, name and arguments, or a failure. -/
def Answers (parse : JsString → Option Json) (vendor : HarnessVendor) (call : Json) :
    HarnessStep → Prop
  | .toolCall callId tool arguments =>
    field vendor.idKey call = some (.str callId) ∧ field "name" call = some (.str tool) ∧
      vendor.carriedArguments parse call = some arguments
  | .failed _ => True
  | .message _ | .complete .. => False

/-- Every call of the frame is answered by one step, in order, and nothing else is read as a call. -/
structure CallsKept (parse : JsString → Option Json) (vendor : HarnessVendor) (frame : Json) :
    Prop where
  answered : vendor.carriedCalls frame ≠ [] →
    List.Forall₂ (Answers parse vendor) (vendor.carriedCalls frame)
      ((vendor.interpret parse frame).filter HarnessStep.isCallOrFailed)
  nothingElse : vendor.carriedCalls frame = [] →
    ∀ step ∈ vendor.interpret parse frame, step.isToolCall = false

/-! ## When calls are kept -/

/-- A block with a type. -/
def Typed (block : Json) : Prop := ((field "type" block).bind stringSchema).isSome

/-- The id and the name are texts with something in them, and the arguments are of their kind. -/
def CallWellFormed (vendor : HarnessVendor) (call : Json) : Prop :=
  ((field vendor.idKey call).bind nonEmptyString).isSome ∧
  ((field "name" call).bind nonEmptyString).isSome ∧
  match vendor with
  | .claudeCode | .pi => (optionalField recordSchema vendor.argumentsKey call).isSome
  | .codex | .deepseek => ((field vendor.argumentsKey call).bind stringSchema).isSome

/-- What stands beside the calls of a message can be read as well. -/
def MessageReadable (vendor : HarnessVendor) (frame : Json) : Prop :=
  ∀ message, vendor.assistantMessage frame = some message →
    (∀ block ∈ contentBlocks message, Typed block) ∧
    (vendor = .pi → (optionalField stringSchema "stopReason" message).isSome)

/-- The frame carries no call, or only calls that keep to their schema. -/
def CallsReadable (vendor : HarnessVendor) (frame : Json) : Prop :=
  vendor.carriedCalls frame = [] ∨
    (MessageReadable vendor frame ∧ ∀ call ∈ vendor.carriedCalls frame, CallWellFormed vendor call)

/-! ## Fields -/

/-- A field holds one text. -/
theorem hasText_unique {key a b : JsString} {value : Json} (ha : hasText key a value = true) :
    hasText key b value = true ↔ b = a := by
  unfold hasText at ha ⊢
  rw [of_decide_eq_true ha, decide_eq_true_eq, Option.some_inj, eq_comm]

theorem hasText_other {key a b : JsString} {value : Json} (ha : hasText key a value = true)
    (hne : b ≠ a) : hasText key b value = false := by
  rw [← Bool.not_eq_true, hasText_unique ha]
  exact hne

theorem lookup_filter_ne {key dropped : JsString} {entries : List (JsString × Json)}
    (hne : key ≠ dropped) :
    (entries.filter fun entry => entry.1 ≠ dropped).lookup key = entries.lookup key := by
  induction entries with
  | nil => rfl
  | cons entry rest ih =>
      obtain ⟨k, v⟩ := entry
      by_cases hk : k = dropped
      · subst hk
        rw [List.filter_cons_of_neg (by simp), ih, List.lookup_cons,
          beq_false_of_ne hne]
      · rw [List.filter_cons_of_pos (by simpa using hk), List.lookup_cons, List.lookup_cons, ih]

/-- Rebuilding an object changes none of its fields but `__proto__`. -/
theorem field_recordSchema {value rebuilt : Json} {key : JsString}
    (h : recordSchema value = some rebuilt) (hkey : key ≠ "__proto__") :
    field key rebuilt = field key value := by
  cases value with
  | obj entries =>
      obtain rfl := Option.some.inj h
      exact lookup_filter_ne hkey
  | _ => cases h

theorem hasText_recordSchema {value rebuilt : Json} {key text : JsString}
    (h : recordSchema value = some rebuilt) (hkey : key ≠ "__proto__") :
    hasText key text rebuilt = hasText key text value := by
  unfold hasText
  rw [field_recordSchema h hkey]

theorem recordSchema_idem {value rebuilt : Json} (h : recordSchema value = some rebuilt) :
    recordSchema rebuilt = some rebuilt := by
  cases value with
  | obj entries =>
      obtain rfl := Option.some.inj h
      unfold recordSchema
      dsimp only
      rw [List.filter_filter]
      simp
  | _ => cases h

theorem isSome_nonEmptyString {value : Option Json} {s : JsString}
    (h : value.bind nonEmptyString = some s) : value = some (.str s) ∧ 1 ≤ s.length := by
  obtain ⟨v, rfl, hv⟩ := Option.bind_eq_some_iff.mp h
  cases v with
  | str t =>
      unfold nonEmptyString at hv
      dsimp only at hv
      split at hv
      · next hlength =>
          obtain rfl := Option.some.inj hv
          exact ⟨rfl, hlength⟩
      · cases hv
  | _ => cases hv

/-! ## Call blocks -/

/-- What a codec reads a block as, when it takes the block for a call. -/
def callStep (kind argumentsKey : JsString) (block : Json) : Option HarnessStep :=
  (callBlockSchema kind argumentsKey block).map fun call =>
    .toolCall call.id call.name (call.arguments.getD (.obj []))

/-- What the walk of a message's content makes of a block. -/
def parsedBlock (kind argumentsKey : JsString) (block : Json) : Option Json :=
  ((textBlockSchema block).or
    ((callBlockSchema kind argumentsKey block).map (CallBlock.toJson kind argumentsKey))).or
    (unknownBlockSchema block)

section Blocks

variable {kind argumentsKey : JsString} {block parsed : Json}

/-- What a call block's schema accepts, and what it answers. -/
theorem callBlockSchema_eq_some {call : CallBlock} :
    callBlockSchema kind argumentsKey block = some call ↔
      hasText "type" kind block = true ∧
      (field "id" block).bind nonEmptyString = some call.id ∧
      (field "name" block).bind nonEmptyString = some call.name ∧
      optionalField recordSchema argumentsKey block = some call.arguments := by
  obtain ⟨id, name, arguments⟩ := call
  unfold callBlockSchema
  by_cases hkind : hasText "type" kind block = true
  · rw [if_pos hkind]
    simp only [Option.bind_eq_bind, Option.bind_eq_some_iff, Option.some.injEq, CallBlock.mk.injEq,
      hkind, true_and]
    constructor
    · rintro ⟨_, hid, _, hname, _, harguments, rfl, rfl, rfl⟩
      exact ⟨hid, hname, harguments⟩
    · rintro ⟨hid, hname, harguments⟩
      exact ⟨_, hid, _, hname, _, harguments, rfl, rfl, rfl⟩
  · rw [if_neg hkind]
    exact ⟨nofun, fun h => absurd h.1 hkind⟩

/-- A typed object can always be rebuilt. -/
theorem recordSchema_of_typed (h : Typed block) : ∃ rebuilt, recordSchema block = some rebuilt := by
  cases block with
  | obj entries => exact ⟨_, rfl⟩
  | _ => cases h

theorem unknownBlockSchema_of_typed (h : Typed block) :
    unknownBlockSchema block = recordSchema block := by
  obtain ⟨text, htext⟩ := Option.isSome_iff_exists.mp h
  unfold unknownBlockSchema
  rw [htext]

/-- Only a typed block is read. -/
theorem parsedBlock_isSome : (parsedBlock kind argumentsKey block).isSome ↔ Typed block := by
  have htyped : ∀ text, hasText "type" text block = true → Typed block := by
    intro text htext
    unfold Typed
    rw [of_decide_eq_true htext]
    rfl
  constructor
  · intro h
    unfold parsedBlock textBlockSchema at h
    split at h
    · next htext => exact htyped _ htext
    · cases hcall : callBlockSchema kind argumentsKey block with
      | some call => exact htyped _ (callBlockSchema_eq_some.mp hcall).1
      | none =>
          rw [hcall] at h
          unfold unknownBlockSchema at h
          unfold Typed
          cases htype : (field "type" block).bind stringSchema with
          | some text => rfl
          | none =>
              rw [htype] at h
              cases h
  · intro h
    obtain ⟨rebuilt, hrebuilt⟩ := recordSchema_of_typed h
    unfold parsedBlock
    rw [unknownBlockSchema_of_typed h, hrebuilt, Option.isSome_or]
    simp

/-- Rebuilding a block does not change what it is taken for. -/
theorem callBlockSchema_recordSchema (hkey : argumentsKey ≠ "__proto__")
    (h : recordSchema block = some parsed) :
    callBlockSchema kind argumentsKey parsed = callBlockSchema kind argumentsKey block := by
  unfold callBlockSchema optionalField
  rw [hasText_recordSchema h (by decide), field_recordSchema h (show ("id" : JsString) ≠ _ by decide),
    field_recordSchema h (show ("name" : JsString) ≠ _ by decide), field_recordSchema h hkey]

/-- A call block is what its schema leaves of it. -/
theorem callBlockSchema_toJson {call : CallBlock}
    (hkey : argumentsKey ∉ (["type", "id", "name"] : List JsString))
    (h : callBlockSchema kind argumentsKey block = some call) :
    callBlockSchema kind argumentsKey (call.toJson kind argumentsKey) = some call := by
  obtain ⟨-, hid, hname, harguments⟩ := callBlockSchema_eq_some.mp h
  obtain ⟨-, hidLength⟩ := isSome_nonEmptyString hid
  obtain ⟨-, hnameLength⟩ := isSome_nonEmptyString hname
  simp only [List.mem_cons, List.not_mem_nil, or_false, not_or] at hkey
  obtain ⟨htype, hidKey, hnameKey⟩ := hkey
  refine callBlockSchema_eq_some.mpr ⟨decide_eq_true rfl, ?_, ?_, ?_⟩
  · show nonEmptyString (.str call.id) = _
    exact if_pos hidLength
  · show nonEmptyString (.str call.name) = _
    exact if_pos hnameLength
  · have hfield : field argumentsKey (call.toJson kind argumentsKey) = call.arguments := by
      unfold CallBlock.toJson field
      dsimp only
      rw [List.lookup_append]
      simp only [List.lookup_cons, beq_false_of_ne htype, beq_false_of_ne hidKey,
        beq_false_of_ne hnameKey, List.lookup_nil, Option.none_or]
      cases call.arguments with
      | none => rfl
      | some arguments => simp [optionalEntry]
    unfold optionalField at harguments ⊢
    rw [hfield]
    cases hargs : call.arguments with
    | none => rfl
    | some arguments =>
        rw [hargs] at harguments
        split at harguments
        · cases harguments
        · obtain ⟨rebuilt, hrebuilt, heq⟩ := Option.map_eq_some_iff.mp harguments
          obtain rfl := Option.some.inj heq
          show (recordSchema rebuilt).map some = _
          rw [recordSchema_idem hrebuilt]
          rfl

/-- **What a block means**: of all the typed blocks, a call is read in the ones of its kind that keep
to its schema, and in no other. -/
theorem blockSteps_calls (hkind : kind ≠ "text")
    (hkey : argumentsKey ∉ (["type", "id", "name", "__proto__"] : List JsString))
    (hparsed : parsedBlock kind argumentsKey block = some parsed) :
    (blockSteps (some (callStep kind argumentsKey)) parsed).filter HarnessStep.isCallOrFailed =
      (callStep kind argumentsKey block).toList := by
  have htyped : Typed block := parsedBlock_isSome.mp (by rw [hparsed]; rfl)
  have hkey' : argumentsKey ∉ (["type", "id", "name"] : List JsString) ∧
      argumentsKey ≠ "__proto__" := by
    simp only [List.mem_cons, List.not_mem_nil, or_false, not_or] at hkey ⊢
    exact ⟨⟨hkey.1, hkey.2.1, hkey.2.2.1⟩, hkey.2.2.2⟩
  unfold parsedBlock at hparsed
  cases htext : textBlockSchema block with
  | some text =>
      -- prose, whose type is not that of a call
      rw [htext, Option.some_or, Option.some_or] at hparsed
      obtain rfl := Option.some.inj hparsed
      unfold textBlockSchema at htext
      split at htext
      · next htype =>
          obtain ⟨prose, -, rfl⟩ := Option.map_eq_some_iff.mp htext
          have hnone : callStep kind argumentsKey block = none := by
            unfold callStep callBlockSchema
            rw [hasText_other htype hkind, if_neg Bool.false_ne_true]
            rfl
          rw [hnone]
          rfl
      · cases htext
  | none =>
      rw [htext, Option.none_or] at hparsed
      cases hcall : callBlockSchema kind argumentsKey block with
      | some call =>
          rw [hcall] at hparsed
          obtain rfl := Option.some.inj hparsed
          have hprose : blockText "text" (call.toJson kind argumentsKey) = none :=
            if_neg (by
              rw [Bool.not_eq_true]
              exact hasText_other (a := kind) (decide_eq_true rfl) hkind.symm)
          unfold blockSteps callStep
          rw [hprose, hcall]
          show List.filter _ (Option.toList ((callBlockSchema kind argumentsKey _).map _)) = _
          rw [callBlockSchema_toJson hkey'.1 hcall]
          rfl
      | none =>
          rw [hcall, unknownBlockSchema_of_typed htyped] at hparsed
          have hrebuilt : recordSchema block = some parsed := hparsed
          have hprose : blockText "text" parsed = none := by
            unfold blockText
            rw [hasText_recordSchema hrebuilt (by decide)]
            unfold textBlockSchema at htext
            split
            · next htype =>
                rw [if_pos htype] at htext
                rw [field_recordSchema hrebuilt (by decide)]
                exact Option.map_eq_none_iff.mp htext
            · rfl
          unfold blockSteps callStep
          rw [hprose, hcall]
          show List.filter _ (Option.toList ((callBlockSchema kind argumentsKey parsed).map _)) = _
          rw [callBlockSchema_recordSchema hkey'.2 hrebuilt, hcall]
          rfl

/-- A block of another kind is no call. -/
theorem callStep_other (h : hasText "type" kind block = false) :
    callStep kind argumentsKey block = none := by
  unfold callStep callBlockSchema
  rw [h]
  rfl

theorem callStep_isSome (h : hasText "type" kind block = true) :
    (callStep kind argumentsKey block).isSome ↔
      ((field "id" block).bind nonEmptyString).isSome ∧
      ((field "name" block).bind nonEmptyString).isSome ∧
      (optionalField recordSchema argumentsKey block).isSome := by
  unfold callStep
  rw [Option.isSome_map, Option.isSome_iff_exists]
  simp only [callBlockSchema_eq_some, h, true_and]
  constructor
  · rintro ⟨call, hid, hname, harguments⟩
    rw [hid, hname, harguments]
    exact ⟨rfl, rfl, rfl⟩
  · rintro ⟨hid, hname, harguments⟩
    obtain ⟨id, hid⟩ := Option.isSome_iff_exists.mp hid
    obtain ⟨name, hname⟩ := Option.isSome_iff_exists.mp hname
    obtain ⟨arguments, harguments⟩ := Option.isSome_iff_exists.mp harguments
    exact ⟨{ id, name, arguments }, hid, hname, harguments⟩

/-- The calls of a message, in order. -/
theorem contentBlockSteps_calls {blocks content : List Json} (hkind : kind ≠ "text")
    (hkey : argumentsKey ∉ (["type", "id", "name", "__proto__"] : List JsString))
    (h : blocks.mapM (parsedBlock kind argumentsKey) = some content) :
    (contentBlockSteps content (some (callStep kind argumentsKey))).filter
        HarnessStep.isCallOrFailed =
      (blocks.filter (hasText "type" kind)).filterMap (callStep kind argumentsKey) := by
  induction blocks generalizing content with
  | nil =>
      obtain rfl := Option.some.inj h
      rfl
  | cons block rest ih =>
      rw [List.mapM_cons] at h
      simp only [Option.bind_eq_bind, Option.bind_eq_some_iff] at h
      obtain ⟨parsed, hparsed, others, hothers, heq⟩ := h
      obtain rfl := Option.some.inj heq
      unfold contentBlockSteps at ih ⊢
      rw [List.flatMap_cons, List.filter_append, blockSteps_calls hkind hkey hparsed, ih hothers]
      cases htype : hasText "type" kind block with
      | true =>
          rw [List.filter_cons_of_pos htype, List.filterMap_cons]
          cases callStep kind argumentsKey block <;> rfl
      | false =>
          rw [List.filter_cons_of_neg (by rw [htype]; exact Bool.false_ne_true),
            callStep_other htype]
          rfl

end Blocks

/-- A step for each item, each the item's own, is a step that none of them lacks. -/
theorem forall₂_filterMap_iff {α β : Type} {R : α → β → Prop} {f : α → Option β} {items : List α}
    (hf : ∀ item ∈ items, ∀ b, f item = some b → R item b) :
    List.Forall₂ R items (items.filterMap f) ↔ ∀ item ∈ items, (f item).isSome := by
  constructor
  · intro h
    exact List.filterMap_length_eq_length.mp h.length_eq.symm
  · intro h
    induction items with
    | nil => exact .nil
    | cons item rest ih =>
        obtain ⟨b, hb⟩ := Option.isSome_iff_exists.mp (h item List.mem_cons_self)
        rw [List.filterMap_cons_some hb]
        exact .cons (hf item List.mem_cons_self b hb)
          (ih (fun other hother => hf other (List.mem_cons_of_mem _ hother))
            fun other hother => h other (List.mem_cons_of_mem _ hother))

/-! ## Messages that carry their calls in blocks -/

/-- What a vendor that carries calls in blocks reads a message as. `readable` is whether the rest of the
message keeps to its schema. -/
def messageSteps (kind argumentsKey : JsString) (readable : Bool) (message : Json) :
    List HarnessStep :=
  if readable then
    match (contentBlocks message).mapM (parsedBlock kind argumentsKey) with
    | some content => contentBlockSteps content (some (callStep kind argumentsKey))
    | none => []
  else []

section Messages

variable {parse : JsString → Option Json} {vendor : HarnessVendor} {readable : Bool}
  {message : Json}

theorem isToolCall_answers {step : HarnessStep} (h : step.isToolCall = true) :
    step.isCallOrFailed = true := by
  cases step with
  | toolCall callId tool arguments => rfl
  | _ => cases h

/-- What a call block is read as answers it. -/
theorem callStep_answers {call : Json} {step : HarnessStep}
    (hvendor : vendor = .claudeCode ∨ vendor = .pi)
    (h : callStep vendor.blockKind vendor.argumentsKey call = some step) :
    Answers parse vendor call step := by
  obtain ⟨block, hblock, rfl⟩ := Option.map_eq_some_iff.mp h
  obtain ⟨-, hid, hname, harguments⟩ := callBlockSchema_eq_some.mp hblock
  have hcarried : HarnessVendor.carriedArguments parse vendor call =
      some (block.arguments.getD (.obj [])) := by
    have hread : HarnessVendor.carriedArguments parse vendor call =
        match field vendor.argumentsKey call with
        | none => some (.obj [])
        | some arguments => recordSchema arguments := by
      rcases hvendor with rfl | rfl <;> rfl
    rw [hread]
    unfold optionalField at harguments
    cases hfield : field vendor.argumentsKey call with
    | none =>
        rw [hfield] at harguments
        rw [← Option.some.inj harguments]
        rfl
    | some arguments =>
        rw [hfield] at harguments
        obtain ⟨rebuilt, hrebuilt, heq⟩ := Option.map_eq_some_iff.mp harguments
        rw [← heq]
        exact hrebuilt
  have hidKey : vendor.idKey = "id" := by rcases hvendor with rfl | rfl <;> rfl
  refine ⟨?_, (isSome_nonEmptyString hname).1, hcarried⟩
  rw [hidKey]
  exact (isSome_nonEmptyString hid).1

/-- **The calls of a message are kept** just where every block is typed and every call keeps to its
schema. -/
theorem messageCalls_iff (hvendor : vendor = .claudeCode ∨ vendor = .pi)
    {calls : List Json} {steps : List HarnessStep}
    (hcalls : calls = (contentBlocks message).filter (hasText "type" vendor.blockKind))
    (hsteps : steps = messageSteps vendor.blockKind vendor.argumentsKey readable message) :
    ((calls ≠ [] → List.Forall₂ (Answers parse vendor) calls
        (steps.filter HarnessStep.isCallOrFailed)) ∧
      (calls = [] → ∀ step ∈ steps, step.isToolCall = false)) ↔
    calls = [] ∨ (((∀ block ∈ contentBlocks message, Typed block) ∧ readable = true) ∧
      ∀ call ∈ calls, CallWellFormed vendor call) := by
  have hkind : vendor.blockKind ≠ "text" := by rcases hvendor with rfl | rfl <;> decide
  have hkey : vendor.argumentsKey ∉ (["type", "id", "name", "__proto__"] : List JsString) := by
    rcases hvendor with rfl | rfl <;> decide
  -- the calls among the steps, when the message is read
  have hread : ∀ content, (contentBlocks message).mapM
      (parsedBlock vendor.blockKind vendor.argumentsKey) = some content → readable = true →
      steps.filter HarnessStep.isCallOrFailed =
        calls.filterMap (callStep vendor.blockKind vendor.argumentsKey) := by
    intro content hcontent hreadable
    rw [hsteps, hcalls]
    unfold messageSteps
    rw [hreadable, if_pos rfl, hcontent]
    exact contentBlockSteps_calls hkind hkey hcontent
  have hunread : (contentBlocks message).mapM
      (parsedBlock vendor.blockKind vendor.argumentsKey) = none ∨ readable = false →
      steps = [] := by
    rintro (hcontent | hunreadable)
    · rw [hsteps]
      unfold messageSteps
      rw [hcontent]
      exact ite_self _
    · rw [hsteps, hunreadable]
      rfl
  have hwellFormed : ∀ call ∈ calls, CallWellFormed vendor call ↔
      (callStep vendor.blockKind vendor.argumentsKey call).isSome := by
    intro call hcall
    rw [hcalls] at hcall
    rw [callStep_isSome (List.mem_filter.mp hcall).2]
    rcases hvendor with rfl | rfl <;> rfl
  have hforall := @forall₂_filterMap_iff _ _ (Answers parse vendor)
    (callStep vendor.blockKind vendor.argumentsKey) calls fun call _ step hstep =>
      callStep_answers hvendor hstep
  have hparsed : (∀ block ∈ contentBlocks message, Typed block) ↔ ((contentBlocks message).mapM
      (parsedBlock vendor.blockKind vendor.argumentsKey)).isSome := by
    rw [mapM_isSome_iff]
    exact forall₂_congr fun block _ => parsedBlock_isSome.symm
  constructor
  · rintro ⟨hanswered, -⟩
    by_cases hnone : calls = []
    · exact .inl hnone
    · right
      have hkept := hanswered hnone
      cases hcontent : (contentBlocks message).mapM
          (parsedBlock vendor.blockKind vendor.argumentsKey) with
      | none =>
          rw [hunread (.inl hcontent)] at hkept
          exact absurd (List.forall₂_nil_right_iff.mp hkept) hnone
      | some content =>
          by_cases hreadable : readable = true
          · rw [hread content hcontent hreadable] at hkept
            refine ⟨⟨hparsed.mpr (by rw [hcontent]; rfl), hreadable⟩, fun call hcall => ?_⟩
            exact (hwellFormed call hcall).mpr (hforall.mp hkept call hcall)
          · rw [hunread (.inr (by simpa using hreadable))] at hkept
            exact absurd (List.forall₂_nil_right_iff.mp hkept) hnone
  · intro h
    refine ⟨fun hsome => ?_, fun hnone step hstep => ?_⟩
    · obtain ⟨⟨htyped, hreadable⟩, hcallsWell⟩ := h.resolve_left hsome
      obtain ⟨content, hcontent⟩ := Option.isSome_iff_exists.mp (hparsed.mp htyped)
      rw [hread content hcontent hreadable]
      exact hforall.mpr fun call hcall => (hwellFormed call hcall).mp (hcallsWell call hcall)
    · by_contra htool
      rw [Bool.not_eq_false] at htool
      have hin := List.mem_filter.mpr ⟨hstep, isToolCall_answers htool⟩
      cases hcontent : (contentBlocks message).mapM
          (parsedBlock vendor.blockKind vendor.argumentsKey) with
      | none =>
          rw [hunread (.inl hcontent)] at hstep
          cases hstep
      | some content =>
          by_cases hreadable : readable = true
          · rw [hread content hcontent hreadable, hnone] at hin
            cases hin
          · rw [hunread (.inr (by simpa using hreadable))] at hstep
            cases hstep

end Messages

/-! ## Frames that carry no call -/

/-- No step asks for a tool. -/
def NoToolCall (steps : List HarnessStep) : Prop := ∀ step ∈ steps, step.isToolCall = false

theorem noToolCall_nil : NoToolCall [] := nofun

theorem noToolCall_singleton {step : HarnessStep} (h : step.isToolCall = false) :
    NoToolCall [step] := by
  intro other hother
  rw [List.mem_singleton.mp hother]
  exact h

/-- Prose alone asks for nothing. -/
theorem noToolCall_prose (content : List Json) : NoToolCall (contentBlockSteps content none) := by
  intro step hstep
  obtain ⟨block, -, hin⟩ := List.mem_flatMap.mp hstep
  unfold blockSteps at hin
  split at hin
  · rw [List.mem_singleton.mp hin]
    rfl
  · cases hin

namespace ClaudeCode

theorem noToolCall_resultSteps (result : Result) : NoToolCall (resultSteps result) := by
  unfold resultSteps
  split <;> exact noToolCall_singleton rfl

/-- A frame that is no assistant message. -/
theorem noToolCall_interpret {frame : Json} (h : assistantSchema frame = none) :
    NoToolCall (interpret frame) := by
  unfold interpret
  rw [h]
  dsimp only
  split
  · exact noToolCall_resultSteps _
  · exact noToolCall_nil

/-- The steps of an assistant message. -/
theorem interpret_message {frame message : Json} (htype : hasText "type" "assistant" frame = true)
    (hmessage : field "message" frame = some message) :
    interpret frame = messageSteps "tool_use" "input" true message := by
  have hresult : resultSchema frame = none := by
    unfold resultSchema
    rw [hasText_other htype (by decide)]
    rfl
  have hassistant : assistantSchema frame = (field "content" message).bind
      (contentSchema fun block =>
        (toolUseBlockSchema block).map (CallBlock.toJson "tool_use" "input")) := by
    unfold assistantSchema
    rw [if_pos htype, hmessage]
    rfl
  unfold interpret messageSteps contentBlocks
  rw [hassistant, hresult]
  cases field "content" message with
  | none => rfl
  | some content =>
      cases content with
      | arr blocks => rfl
      | _ => rfl

end ClaudeCode

namespace Pi

theorem noToolCall_endingSteps (frame : Json) : NoToolCall (endingSteps frame) := by
  unfold endingSteps
  split
  · exact noToolCall_singleton rfl
  · split
    · split
      · exact noToolCall_nil
      · exact noToolCall_singleton rfl
    · exact noToolCall_nil

theorem noToolCall_interpret {frame : Json} (h : messageEndSchema frame = none) :
    NoToolCall (interpret frame) := by
  unfold interpret
  rw [h]
  dsimp only
  split
  · split
    · exact noToolCall_endingSteps frame
    · exact noToolCall_singleton rfl
  · exact noToolCall_endingSteps frame

/-- The steps of an assistant message at its end. -/
theorem interpret_message {frame message : Json}
    (htype : hasText "type" "message_end" frame = true)
    (hmessage : field "message" frame = some message)
    (hrole : hasText "role" "assistant" message = true) :
    interpret frame = messageSteps "toolCall" "arguments"
      (optionalField stringSchema "stopReason" message).isSome message := by
  have hother : ∀ text : JsString, text ≠ "message_end" → hasText "type" text frame = false :=
    fun _ hne => hasText_other htype hne
  have hrest : messageEndSchema frame = none → interpret frame = [] := by
    intro hnone
    unfold interpret responseSchema endingSteps errorSchema agentEndSchema
    rw [hnone, hother _ (by decide), hother _ (by decide), hother _ (by decide)]
    rfl
  have hend : messageEndSchema frame = ((field "content" message).bind (contentSchema fun block =>
      (toolCallBlockSchema block).map (CallBlock.toJson "toolCall" "arguments"))).bind
        fun content => (optionalField stringSchema "stopReason" message).map fun _ => content := by
    unfold messageEndSchema
    rw [if_pos htype, hmessage]
    show assistantMessageSchema message = _
    unfold assistantMessageSchema
    rw [if_pos hrole]
    cases optionalField stringSchema "stopReason" message <;> rfl
  unfold messageSteps contentBlocks
  cases hcontent : field "content" message with
  | none =>
      rw [hrest (by rw [hend, hcontent]; rfl)]
      exact (ite_self _).symm
  | some content =>
      rw [hcontent] at hend
      cases content with
      | arr blocks =>
          have hblocks : (some (Json.arr blocks)).bind (contentSchema fun block =>
              (toolCallBlockSchema block).map (CallBlock.toJson "toolCall" "arguments")) =
              blocks.mapM (parsedBlock "toolCall" "arguments") := rfl
          rw [hblocks] at hend
          dsimp only
          cases hread : blocks.mapM (parsedBlock "toolCall" "arguments") with
          | none =>
              rw [hrest (by rw [hend, hread]; rfl)]
              exact (ite_self _).symm
          | some content =>
              rw [hread] at hend
              cases hstop : optionalField stringSchema "stopReason" message with
              | none =>
                  rw [hrest (by rw [hend, hstop]; rfl)]
                  rfl
              | some stopReason =>
                  unfold interpret
                  rw [hend, hstop]
                  rfl
      | _ =>
          rw [hrest (by rw [hend]; rfl)]
          exact (ite_self _).symm

end Pi

namespace Codex

theorem noToolCall_cliSteps (frame : Json) : NoToolCall (cliSteps frame) := by
  unfold cliSteps
  split
  · split
    · exact noToolCall_nil
    · exact noToolCall_singleton rfl
  · split
    · exact noToolCall_singleton rfl
    · split
      · exact noToolCall_singleton rfl
      · exact noToolCall_nil

theorem noToolCall_otherSteps (frame : Json) : NoToolCall (otherSteps frame) := by
  unfold otherSteps
  split
  · exact noToolCall_singleton rfl
  · split
    · exact noToolCall_singleton rfl
    · split
      · intro step hstep
        obtain ⟨block, -, hblock⟩ := List.mem_filterMap.mp hstep
        obtain ⟨text, -, rfl⟩ := Option.map_eq_some_iff.mp hblock
        rfl
      · exact noToolCall_cliSteps frame

/-- A call that is not read is read as nothing. -/
theorem otherSteps_call {frame : Json} (h : hasText "type" "function_call" frame = true) :
    otherSteps frame = [] := by
  have hother : ∀ text : JsString, text ≠ "function_call" → hasText "type" text frame = false :=
    fun _ hne => hasText_other h hne
  unfold otherSteps failureSchema completedSchema messageSchema cliSteps agentMessageItemSchema
    turnFailedSchema
  rw [hother "error" (by decide), hother "response.failed" (by decide),
    hother "response.completed" (by decide), hother "message" (by decide),
    hother "item.completed" (by decide), hother "turn.completed" (by decide),
    hother "turn.failed" (by decide)]
  rfl

end Codex

/-! ## When calls are kept -/

section Kept

variable {parse : JsString → Option Json}

/-- A call in a frame of its own: kept just where its fields keep to their schema. -/
theorem callFrame_iff {vendor : HarnessVendor} {call : Json} {steps : List HarnessStep}
    {wellFormed : Prop}
    (hread : wellFormed → ∃ step, steps = [step] ∧ step.isCallOrFailed = true ∧
      Answers parse vendor call step)
    (hunread : ¬ wellFormed → steps = []) :
    (([call] ≠ [] → List.Forall₂ (Answers parse vendor) [call]
        (steps.filter HarnessStep.isCallOrFailed)) ∧
      ([call] = [] → ∀ step ∈ steps, step.isToolCall = false)) ↔ wellFormed := by
  by_cases hwell : wellFormed
  · obtain ⟨step, rfl, hkind, hanswers⟩ := hread hwell
    refine ⟨fun _ => hwell, fun _ => ⟨fun _ => ?_, fun h => absurd h (List.cons_ne_nil _ _)⟩⟩
    rw [List.filter_cons_of_pos hkind]
    exact .cons hanswers .nil
  · rw [hunread hwell]
    refine ⟨fun h => ?_, fun h => absurd h hwell⟩
    exact absurd (h.1 (List.cons_ne_nil _ _)) (by simp)

/-- The arguments of a call in text are released as they parse, or refused. -/
theorem parsedArguments_answers {vendor : HarnessVendor}
    (hvendor : vendor = .codex ∨ vendor = .deepseek) {call : Json}
    {callId name raw message : JsString}
    (hid : (field vendor.idKey call).bind nonEmptyString = some callId)
    (hname : (field "name" call).bind nonEmptyString = some name)
    (harguments : (field vendor.argumentsKey call).bind stringSchema = some raw) :
    ∃ step, (match parseToolArguments parse raw with
        | none => [argumentsUnparseable message]
        | some parsed => [.toolCall callId name parsed]) = [step] ∧
      step.isCallOrFailed = true ∧ Answers parse vendor call step := by
  cases hparsed : parseToolArguments parse raw with
  | none => exact ⟨_, rfl, rfl, trivial⟩
  | some parsed =>
      refine ⟨_, rfl, rfl, (isSome_nonEmptyString hid).1, (isSome_nonEmptyString hname).1, ?_⟩
      have hcarried : HarnessVendor.carriedArguments parse vendor call =
          ((field vendor.argumentsKey call).bind stringSchema).bind (parseToolArguments parse) := by
        rcases hvendor with rfl | rfl <;> rfl
      rw [hcarried, harguments]
      exact hparsed

/-- A call in text keeps to its schema just where the three fields read. -/
theorem textCall_wellFormed {vendor : HarnessVendor} (hvendor : vendor = .codex ∨ vendor = .deepseek)
    {call : Json} : CallWellFormed vendor call ↔ ∃ callId name raw,
      (field vendor.idKey call).bind nonEmptyString = some callId ∧
      (field "name" call).bind nonEmptyString = some name ∧
      (field vendor.argumentsKey call).bind stringSchema = some raw := by
  have hwell : CallWellFormed vendor call ↔ ((field vendor.idKey call).bind nonEmptyString).isSome ∧
      ((field "name" call).bind nonEmptyString).isSome ∧
      ((field vendor.argumentsKey call).bind stringSchema).isSome := by
    rcases hvendor with rfl | rfl <;> rfl
  rw [hwell]
  simp only [Option.isSome_iff_exists]
  constructor
  · rintro ⟨⟨callId, hid⟩, ⟨name, hname⟩, raw, hraw⟩
    exact ⟨callId, name, raw, hid, hname, hraw⟩
  · rintro ⟨callId, name, raw, hid, hname, hraw⟩
    exact ⟨⟨callId, hid⟩, ⟨name, hname⟩, raw, hraw⟩

theorem functionCallSchema_eq_some {frame : Json} {call : Codex.FunctionCall} :
    Codex.functionCallSchema frame = some call ↔ hasText "type" "function_call" frame = true ∧
      (field "call_id" frame).bind nonEmptyString = some call.callId ∧
      (field "name" frame).bind nonEmptyString = some call.name ∧
      (field "arguments" frame).bind stringSchema = some call.arguments := by
  obtain ⟨callId, name, raw⟩ := call
  unfold Codex.functionCallSchema
  by_cases htype : hasText "type" "function_call" frame = true
  · rw [if_pos htype]
    simp only [Option.bind_eq_bind, Option.bind_eq_some_iff, Option.some.injEq,
      Codex.FunctionCall.mk.injEq, htype, true_and]
    constructor
    · rintro ⟨_, hid, _, hname, _, hraw, rfl, rfl, rfl⟩
      exact ⟨hid, hname, hraw⟩
    · rintro ⟨hid, hname, hraw⟩
      exact ⟨_, hid, _, hname, _, hraw, rfl, rfl, rfl⟩
  · rw [if_neg htype]
    exact ⟨nofun, fun h => absurd h.1 htype⟩

theorem toolCallEventSchema_eq_some {data : Json} {call : DeepSeek.ToolCallEvent} :
    DeepSeek.toolCallEventSchema data = some call ↔
      (field "callId" data).bind nonEmptyString = some call.callId ∧
      (field "name" data).bind nonEmptyString = some call.name ∧
      (field "arguments" data).bind stringSchema = some call.arguments := by
  obtain ⟨callId, name, raw⟩ := call
  unfold DeepSeek.toolCallEventSchema
  simp only [Option.bind_eq_bind, Option.bind_eq_some_iff, Option.some.injEq,
    DeepSeek.ToolCallEvent.mk.injEq]
  constructor
  · rintro ⟨_, hid, _, hname, _, hraw, rfl, rfl, rfl⟩
    exact ⟨hid, hname, hraw⟩
  · rintro ⟨hid, hname, hraw⟩
    exact ⟨_, hid, _, hname, _, hraw, rfl, rfl, rfl⟩

theorem codexCall_iff {frame : Json} (h : hasText "type" "function_call" frame = true) :
    (([frame] ≠ [] → List.Forall₂ (Answers parse .codex) [frame]
        ((Codex.interpret parse frame).filter HarnessStep.isCallOrFailed)) ∧
      ([frame] = [] → ∀ step ∈ Codex.interpret parse frame, step.isToolCall = false)) ↔
    CallWellFormed .codex frame := by
  refine callFrame_iff (fun hwell => ?_) fun hmalformed => ?_
  · obtain ⟨callId, name, raw, hid, hname, hraw⟩ := (textCall_wellFormed (.inl rfl)).mp hwell
    have hcall : Codex.functionCallSchema frame = some { callId, name, arguments := raw } :=
      functionCallSchema_eq_some.mpr ⟨h, hid, hname, hraw⟩
    unfold Codex.interpret
    rw [hcall]
    exact parsedArguments_answers (.inl rfl) hid hname hraw
  · unfold Codex.interpret
    cases hcall : Codex.functionCallSchema frame with
    | none => exact Codex.otherSteps_call h
    | some call =>
        obtain ⟨-, hid, hname, hraw⟩ := functionCallSchema_eq_some.mp hcall
        exact absurd ((textCall_wellFormed (.inl rfl)).mpr ⟨_, _, _, hid, hname, hraw⟩) hmalformed

theorem deepseekCall_iff {event : DeepSeek.SessionEvent} (h : event.type = "tool/call") :
    (([event.data] ≠ [] → List.Forall₂ (Answers parse .deepseek) [event.data]
        ((DeepSeek.eventSteps parse event).filter HarnessStep.isCallOrFailed)) ∧
      ([event.data] = [] → ∀ step ∈ DeepSeek.eventSteps parse event, step.isToolCall = false)) ↔
    CallWellFormed .deepseek event.data := by
  have hsteps : DeepSeek.eventSteps parse event =
      (DeepSeek.toolCallEventSchema event.data).elim [] (DeepSeek.toolCallSteps parse) := by
    unfold DeepSeek.eventSteps
    rw [if_pos h]
    cases DeepSeek.toolCallEventSchema event.data with
    | none => rfl
    | some call => rfl
  refine callFrame_iff (fun hwell => ?_) fun hmalformed => ?_
  · obtain ⟨callId, name, raw, hid, hname, hraw⟩ := (textCall_wellFormed (.inr rfl)).mp hwell
    have hcall : DeepSeek.toolCallEventSchema event.data = some { callId, name, arguments := raw } :=
      toolCallEventSchema_eq_some.mpr ⟨hid, hname, hraw⟩
    rw [hsteps, hcall]
    exact parsedArguments_answers (.inr rfl) hid hname hraw
  · rw [hsteps]
    cases hcall : DeepSeek.toolCallEventSchema event.data with
    | none => rfl
    | some call =>
        obtain ⟨hid, hname, hraw⟩ := toolCallEventSchema_eq_some.mp hcall
        exact absurd ((textCall_wellFormed (.inr rfl)).mpr ⟨_, _, _, hid, hname, hraw⟩) hmalformed

/-- An event that is no call asks for nothing. -/
theorem noToolCall_eventSteps {event : DeepSeek.SessionEvent} (h : event.type ≠ "tool/call") :
    NoToolCall (DeepSeek.eventSteps parse event) := by
  unfold DeepSeek.eventSteps
  rw [if_neg h]
  split
  · split
    · exact noToolCall_nil
    · exact noToolCall_prose _
  · split
    · split
      · exact noToolCall_nil
      · unfold DeepSeek.turnEndSteps
        split <;> exact noToolCall_singleton rfl
    · exact noToolCall_nil

/-- A frame that carries nothing keeps what it carries when it asks for nothing. -/
theorem callsKept_of_none {vendor : HarnessVendor} {frame : Json}
    (hnone : vendor.carriedCalls frame = []) (h : NoToolCall (vendor.interpret parse frame)) :
    CallsKept parse vendor frame ↔ CallsReadable vendor frame :=
  iff_of_true ⟨fun hsome => absurd hnone hsome, fun _ => h⟩ (.inl hnone)

theorem callsKept_and {vendor : HarnessVendor} {frame : Json} : CallsKept parse vendor frame ↔
    (vendor.carriedCalls frame ≠ [] → List.Forall₂ (Answers parse vendor)
      (vendor.carriedCalls frame)
      ((vendor.interpret parse frame).filter HarnessStep.isCallOrFailed)) ∧
    (vendor.carriedCalls frame = [] →
      ∀ step ∈ vendor.interpret parse frame, step.isToolCall = false) :=
  ⟨fun h => ⟨h.answered, h.nothingElse⟩, fun h => ⟨h.1, h.2⟩⟩

theorem carriedCalls_none {vendor : HarnessVendor} (hvendor : vendor = .claudeCode ∨ vendor = .pi)
    {frame : Json} (h : vendor.assistantMessage frame = none) : vendor.carriedCalls frame = [] := by
  have hcarried : vendor.carriedCalls frame = match vendor.assistantMessage frame with
      | some message => (contentBlocks message).filter (hasText "type" vendor.blockKind)
      | none => [] := by
    rcases hvendor with rfl | rfl <;> rfl
  rw [hcarried, h]

theorem carriedCalls_some {vendor : HarnessVendor} (hvendor : vendor = .claudeCode ∨ vendor = .pi)
    {frame message : Json} (h : vendor.assistantMessage frame = some message) :
    vendor.carriedCalls frame =
      (contentBlocks message).filter (hasText "type" vendor.blockKind) := by
  have hcarried : vendor.carriedCalls frame = match vendor.assistantMessage frame with
      | some message => (contentBlocks message).filter (hasText "type" vendor.blockKind)
      | none => [] := by
    rcases hvendor with rfl | rfl <;> rfl
  rw [hcarried, h]

/-- **Calls are kept** just where the frame carries none, or each keeps to its schema and what stands
beside it can be read. -/
theorem callsKept_iff (parse : JsString → Option Json) (vendor : HarnessVendor) (frame : Json) :
    CallsKept parse vendor frame ↔ CallsReadable vendor frame := by
  cases vendor with
  | claudeCode =>
      -- only a message of the assistant carries calls
      cases hmessage : HarnessVendor.assistantMessage .claudeCode frame with
      | none =>
          refine callsKept_of_none (carriedCalls_none (.inl rfl) hmessage)
            (ClaudeCode.noToolCall_interpret ?_)
          have hread : (if hasText "type" "assistant" frame then field "message" frame else none) =
            none := hmessage
          unfold ClaudeCode.assistantSchema
          split
          · next htype =>
              rw [if_pos htype] at hread
              rw [hread]
              rfl
          · rfl
      | some message =>
          have hread : (if hasText "type" "assistant" frame then field "message" frame else none) =
            some message := hmessage
          split at hread
          · next htype =>
              refine callsKept_and.trans ((messageCalls_iff (.inl rfl)
                (carriedCalls_some (.inl rfl) hmessage)
                (ClaudeCode.interpret_message htype hread)).trans ?_)
              unfold CallsReadable MessageReadable
              rw [hmessage]
              simp
          · cases hread
  | pi =>
      cases hmessage : HarnessVendor.assistantMessage .pi frame with
      | none =>
          refine callsKept_of_none (carriedCalls_none (.inr rfl) hmessage)
            (Pi.noToolCall_interpret ?_)
          have hread : (if hasText "type" "message_end" frame then
            (field "message" frame).filter (hasText "role" "assistant") else none) = none := hmessage
          unfold Pi.messageEndSchema
          split
          · next htype =>
              rw [if_pos htype, Option.filter_eq_none_iff] at hread
              cases hfield : field "message" frame with
              | none => rfl
              | some message => exact if_neg (hread message hfield)
          · rfl
      | some message =>
          have hread : (if hasText "type" "message_end" frame then
            (field "message" frame).filter (hasText "role" "assistant") else none) =
              some message := hmessage
          split at hread
          · next htype =>
              obtain ⟨hfield, hrole⟩ := Option.filter_eq_some_iff.mp hread
              refine callsKept_and.trans ((messageCalls_iff (.inr rfl)
                (carriedCalls_some (.inr rfl) hmessage)
                (Pi.interpret_message htype hfield hrole)).trans ?_)
              unfold CallsReadable MessageReadable
              rw [hmessage]
              simp
          · cases hread
  | codex =>
      -- a call is a frame of its own here
      cases htype : hasText "type" "function_call" frame with
      | false =>
          have hnone : Codex.functionCallSchema frame = none := by
            unfold Codex.functionCallSchema
            rw [htype]
            rfl
          refine callsKept_of_none ?_ ?_
          · show (if hasText "type" "function_call" frame = true then _ else _) = _
            rw [htype]
            rfl
          · show NoToolCall (Codex.interpret parse frame)
            unfold Codex.interpret
            rw [hnone]
            exact Codex.noToolCall_otherSteps frame
      | true =>
          have hcarried : HarnessVendor.carriedCalls .codex frame = [frame] := if_pos htype
          rw [callsKept_and, hcarried]
          refine (codexCall_iff htype).trans ?_
          unfold CallsReadable MessageReadable
          rw [hcarried]
          simp [HarnessVendor.assistantMessage]
  | deepseek =>
      cases hevent : DeepSeek.readEvent frame with
      | none =>
          refine callsKept_of_none ?_ ?_
          · show (match DeepSeek.readEvent frame with | some event => _ | none => _) = _
            rw [hevent]
          · show NoToolCall (DeepSeek.interpret parse frame)
            unfold DeepSeek.interpret
            rw [hevent]
            exact noToolCall_nil
      | some event =>
          have hinterpret : HarnessVendor.interpret parse .deepseek frame =
              DeepSeek.eventSteps parse event := by
            show DeepSeek.interpret parse frame = _
            unfold DeepSeek.interpret
            rw [hevent]
          have hcalls : HarnessVendor.carriedCalls .deepseek frame =
              if event.type = "tool/call" then [event.data] else [] := by
            show (match DeepSeek.readEvent frame with
              | some event => if event.type = "tool/call" then [event.data] else []
              | none => []) = _
            rw [hevent]
          -- an event carries one call at most, as its data
          by_cases htype : event.type = "tool/call"
          · rw [if_pos htype] at hcalls
            rw [callsKept_and, hcalls, hinterpret]
            refine (deepseekCall_iff htype).trans ?_
            unfold CallsReadable MessageReadable
            rw [hcalls]
            simp [HarnessVendor.assistantMessage]
          · rw [if_neg htype] at hcalls
            refine callsKept_of_none hcalls ?_
            rw [hinterpret]
            exact noToolCall_eventSteps htype

end Kept

/-! ## A call without its arguments as an object -/

namespace Sample

/-- An assistant message of one call, whose input is a text. -/
def textInput : Json :=
  .obj [("type", .str "assistant"), ("message", .obj [("content", .arr [.obj [
    ("type", .str "tool_use"), ("id", .str "toolu_1"), ("name", .str "files.search"),
    ("input", .str "quarterly report")]])])]

end Sample

/-- The message carries a call, and is read as nothing. -/
theorem call_erased :
    HarnessVendor.assistantMessage .claudeCode Sample.textInput ≠ none ∧
    ∀ parse, ¬ CallsKept parse .claudeCode Sample.textInput := by
  refine ⟨nofun, fun parse hkept => ?_⟩
  have hlength := (hkept.answered (by
    show HarnessVendor.carriedCalls .claudeCode Sample.textInput ≠ []
    exact List.cons_ne_nil _ _)).length_eq
  cases hlength

end SharedOS.Adapters
