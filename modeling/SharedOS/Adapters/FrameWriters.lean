/-
SharedOS.Adapters.FrameWriters — the frames a harness would send, and what they are read as.

A writer is the inverse of `interpret`: it builds the frames a recorded conversation is made of. Two of
the vendors carry the arguments of a call as JSON text and two as an object, and each wraps a frame in
an envelope of its own. `interpret_toolCall`, `interpret_message` and `interpret_complete` say that every
frame is read as the one step it was written for.
-/
import SharedOS.Adapters.CallsCarried
import SharedOS.Core.ReadJson
import SharedOS.Foundation.JsonText
import SharedOS.Kernel.PublishedTool

namespace SharedOS.Adapters

open SharedOS.Foundation SharedOS.Contracts SharedOS.Mcp SharedOS.Runtime SharedOS.Core
open SharedOS.Kernel

/-! ## The writers -/

/-- How a vendor writes a call, a piece of prose and the end. -/
structure HarnessFrameWriter where
  toolCall : JsString → JsString → Json → Json
  message : JsString → Json
  complete : Option Json → Json

/-- A whole number, as a frame holds it. -/
def frameNumber (n : ℕ) : Json := .num (.finite n)

section Writers

variable [HostPlatform]

/-- A value as JSON text. -/
def jsonText (value : Json) : JsString := Json.stringify HostPlatform.numberToString value

/-- Codex writes a call's arguments as text. -/
def codexFrameWriter : HarnessFrameWriter where
  toolCall callId tool arguments := .obj [("type", .str "function_call"), ("call_id", .str callId),
    ("name", .str tool), ("arguments", .str (jsonText arguments))]
  message text := .obj [("type", .str "message"),
    ("content", .arr [.obj [("type", .str "output_text"), ("text", .str text)]])]
  complete output := .obj [("type", .str "response.completed"),
    ("response", .obj (optionalEntry "output_text" (output.map fun value => .str (jsonText value))))]

/-- Claude Code writes a call as a block of the assistant's message. -/
def claudeCodeFrameWriter : HarnessFrameWriter where
  toolCall callId tool arguments := .obj [("type", .str "assistant"),
    ("message", .obj [("role", .str "assistant"), ("content", .arr [.obj [("type", .str "tool_use"),
      ("id", .str callId), ("name", .str tool), ("input", arguments)]])])]
  message text := .obj [("type", .str "assistant"),
    ("message", .obj [("role", .str "assistant"),
      ("content", .arr [.obj [("type", .str "text"), ("text", .str text)]])])]
  complete output := .obj (([("type", .str "result"), ("subtype", .str "success"),
      ("is_error", .bool false)] : List (JsString × Json)) ++
    optionalEntry "result" (output.map fun value => .str (jsonText value)))

/-- One event of a DeepSeek session. -/
def sessionEvent (type : JsString) (data : Json) : Json :=
  .obj [("jsonrpc", .str "2.0"), ("method", .str "session.event"),
    ("params", .obj [("sessionId", .str "session-1"),
      ("event", .obj [("type", .str type), ("seq", frameNumber 1), ("time", frameNumber 0),
        ("data", data)])])]

/-- DeepSeek writes events of a session. -/
def deepseekFrameWriter : HarnessFrameWriter where
  toolCall callId tool arguments := sessionEvent "tool/call"
    (.obj [("turn", frameNumber 1), ("step", frameNumber 1), ("callId", .str callId),
      ("name", .str tool), ("arguments", .str (jsonText arguments))])
  message text := sessionEvent "assistant/message"
    (.obj [("turn", frameNumber 1), ("step", frameNumber 1),
      ("message", .obj [("role", .str "assistant"),
        ("content", .arr [.obj [("type", .str "text"), ("text", .str text)]])])])
  complete _ := sessionEvent "turn/end"
    (.obj [("turn", frameNumber 1), ("reason", .obj [("kind", .str "completed")])])

/-- The end of an assistant's message, with its content. -/
def piAssistantMessage (content : Json) : Json :=
  .obj [("type", .str "message_end"),
    ("message", .obj [("role", .str "assistant"), ("content", content),
      ("stopReason", .str "toolUse")])]

/-- Pi writes a call as a block of the message that ends. -/
def piFrameWriter : HarnessFrameWriter where
  toolCall callId tool arguments := piAssistantMessage (.arr [.obj [("type", .str "toolCall"),
    ("id", .str callId), ("name", .str tool), ("arguments", arguments)]])
  message text := piAssistantMessage (.arr [.obj [("type", .str "text"), ("text", .str text)]])
  complete _ := .obj [("type", .str "agent_end"), ("willRetry", .bool false)]

/-- The writer of a vendor. -/
def HarnessVendor.writer : HarnessVendor → HarnessFrameWriter
  | .codex => codexFrameWriter
  | .claudeCode => claudeCodeFrameWriter
  | .deepseek => deepseekFrameWriter
  | .pi => piFrameWriter

end Writers

/-! ## Arguments -/

/-- A JSON object of arguments: no `__proto__` key at any depth, and finite numbers. -/
inductive PlainJson : Json → Prop
  | null : PlainJson .null
  | bool (b : Bool) : PlainJson (.bool b)
  | negZero : PlainJson (.num .negZero)
  | num (q : ℚ) : PlainJson (.num (.finite q))
  | str (s : JsString) : PlainJson (.str s)
  | arr {items : List Json} : (∀ v ∈ items, PlainJson v) → PlainJson (.arr items)
  | obj {entries : List (JsString × Json)} : (∀ e ∈ entries, e.1 ≠ "__proto__") →
      (∀ e ∈ entries, PlainJson e.2) → PlainJson (.obj entries)

/-- The text of a plain value carries it, but for the sign of a zero. -/
theorem reread_eq_cloneJson {v : Json} (hplain : PlainJson v) (hordered : KeysOrdered v) :
    v.reread = cloneJson v := by
  induction v with
  | null => rfl
  | bool b => rfl
  | str s => rfl
  | num x => cases hplain <;> rfl
  | arr items ih =>
      cases hplain with
      | arr hplain =>
          cases hordered with
          | arr hordered =>
              have hitems : items.map Json.reread = items.map cloneJson :=
                List.map_congr_left fun v hv => ih v hv (hplain v hv) (hordered v hv)
              simp only [Json.reread, Json.rereadItems_eq_map, cloneJson, cloneJsonItems_eq_map,
                hitems]
  | obj entries ih =>
      cases hplain with
      | obj _ hplain =>
          cases hordered with
          | obj hkeys hordered =>
              have hentries : entries.map (fun e => (e.1, e.2.reread)) =
                  entries.map fun e => (e.1, cloneJson e.2) := by
                refine List.map_congr_left fun e he => ?_
                rw [ih e he (hplain e he) (hordered e he)]
              have hsame : PropertyOrdered (entries.map fun e => (e.1, cloneJson e.2)) := by
                refine propertyOrdered_of_keys ?_ hkeys
                rw [List.map_map]
                rfl
              simp only [Json.reread, Json.rereadEntries_eq_map, cloneJson,
                cloneJsonEntries_eq_map, hentries, createObject_of_ordered hsame]

/-- A plain value is as its schema leaves it. -/
theorem jsonSchema_plain {v : Json} (h : PlainJson v) : jsonSchema v = some v := by
  induction v with
  | null => rfl
  | bool b => rfl
  | str s => rfl
  | num x => cases h <;> rfl
  | arr items ih =>
      cases h with
      | arr h =>
          have hitems : ∀ rest : List Json, (∀ v ∈ rest, jsonSchema v = some v) →
              jsonItemsSchema rest = some rest := by
            intro rest
            induction rest with
            | nil => exact fun _ => rfl
            | cons v rest ihrest =>
                intro hrest
                simp only [jsonItemsSchema, hrest v List.mem_cons_self,
                  ihrest fun w hw => hrest w (List.mem_cons_of_mem v hw)]
                rfl
          rw [jsonSchema, hitems items fun v hv => ih v hv (h v hv)]
          rfl
  | obj entries ih =>
      cases h with
      | obj hkeys h =>
          have hentries : ∀ rest : List (JsString × Json),
              (∀ e ∈ rest, e.1 ≠ "__proto__" ∧ jsonSchema e.2 = some e.2) →
              jsonEntriesSchema rest = some rest := by
            intro rest
            induction rest with
            | nil => exact fun _ => rfl
            | cons e rest ihrest =>
                intro hrest
                obtain ⟨hkey, hvalue⟩ := hrest e List.mem_cons_self
                simp only [jsonEntriesSchema, hvalue, if_neg hkey,
                  ihrest fun f hf => hrest f (List.mem_cons_of_mem e hf)]
                rfl
          rw [jsonSchema, hentries entries fun e he => ⟨hkeys e he, ih e he (h e he)⟩]
          rfl

/-- The schema of argument objects leaves plain ones alone. -/
theorem recordSchema_plain {entries : List (JsString × Json)} (h : PlainJson (.obj entries)) :
    recordSchema (.obj entries) = some (.obj entries) := by
  cases h with
  | obj hkeys _ =>
      refine congrArg (fun kept => some (Json.obj kept)) ?_
      exact List.filter_eq_self.mpr fun e he => decide_eq_true (hkeys e he)

section Reading

variable [HostPlatform]

/-- **Arguments are read back from their text.** -/
theorem parseToolArguments_text {entries : List (JsString × Json)} (hplain : PlainJson (.obj entries))
    (hordered : KeysOrdered (.obj entries))
    (hnumbers : (Json.obj entries).NumbersIn (Json.ReadsBack HostPlatform.numberToString)) :
    parseToolArguments jsonParse (jsonText (.obj entries)) = some (cloneJson (.obj entries)) := by
  have hblank : trim (jsonText (.obj entries)) ≠ [] := trim_cons_ne_nil (by decide)
  have hschema : jsonObjectSchema (.obj entries) = some (.obj entries) := jsonSchema_plain hplain
  have hclone := jsonObjectSchema_cloneJson hschema
  unfold parseToolArguments
  rw [if_neg hblank, jsonText, jsonParse_stringify hnumbers, reread_eq_cloneJson hplain hordered]
  exact hclone

/-! ## What the frames are read as -/

/-- The arguments a frame carries: as they are, or as their text carries them. -/
def HarnessVendor.carried : HarnessVendor → Json → Json
  | .codex, arguments | .deepseek, arguments => cloneJson arguments
  | .claudeCode, arguments | .pi, arguments => arguments

/-- The output a closing frame carries. -/
def HarnessVendor.finalOutput : HarnessVendor → Option Json → Option Json
  | .codex, output | .claudeCode, output => output.map fun value => textOutput (jsonText value)
  | .deepseek, _ | .pi, _ => none

theorem interpret_message (vendor : HarnessVendor) (text : JsString) :
    vendor.interpret jsonParse (vendor.writer.message text) = [.message text] := by
  cases vendor <;> rfl

theorem interpret_complete (vendor : HarnessVendor) (output : Option Json) :
    vendor.interpret jsonParse (vendor.writer.complete output) =
      [.complete (vendor.finalOutput output)] := by
  cases vendor <;> cases output <;> rfl

omit [HostPlatform] in
theorem nonEmptyString_of_ne_nil {s : JsString} (h : s ≠ []) : nonEmptyString (.str s) = some s :=
  if_pos (List.length_pos_iff.mpr h)

/-- The block of a call, as a vendor that carries arguments as an object writes it. -/
def callBlock (kind argumentsKey callId tool : JsString) (arguments : Json) : Json :=
  CallBlock.toJson kind argumentsKey { id := callId, name := tool, arguments := some arguments }

omit [HostPlatform] in
/-- A message of one call is that call, where the block is read as itself. -/
theorem contentBlockSteps_call {call : Json → Option CallBlock} {kind argumentsKey callId tool : JsString}
    {arguments : Json} (hkind : hasText "type" "text" (callBlock kind argumentsKey callId tool arguments)
      = false)
    (hblock : call (callBlock kind argumentsKey callId tool arguments) =
      some { id := callId, name := tool, arguments := some arguments }) :
    (contentSchema (fun block => (call block).map (CallBlock.toJson kind argumentsKey))
        (.arr [callBlock kind argumentsKey callId tool arguments])).map
      (fun content => contentBlockSteps content
        (some fun block => (call block).map fun toolCall =>
          .toolCall toolCall.id toolCall.name (toolCall.arguments.getD (.obj [])))) =
      some [.toolCall callId tool arguments] := by
  have htext : textBlockSchema (callBlock kind argumentsKey callId tool arguments) = none := by
    unfold textBlockSchema
    rw [hkind]
    rfl
  have hread : contentSchema (fun block => (call block).map (CallBlock.toJson kind argumentsKey))
      (.arr [callBlock kind argumentsKey callId tool arguments]) =
      some [callBlock kind argumentsKey callId tool arguments] := by
    simp only [contentSchema, List.mapM_cons, htext, hblock, Option.map_some, Option.none_or,
      Option.some_or, List.mapM_nil]
    rfl
  have hprose : blockText "text" (callBlock kind argumentsKey callId tool arguments) = none := by
    unfold blockText
    rw [hkind]
    rfl
  rw [hread]
  simp only [Option.map_some, contentBlockSteps, List.flatMap_cons, List.flatMap_nil, blockSteps,
    hprose, Option.bind_some, hblock]
  rfl

/-- **A frame of a call is read as that call**, with its id, its tool and its arguments. -/
theorem interpret_toolCall (vendor : HarnessVendor) {callId tool : JsString}
    {entries : List (JsString × Json)} (hid : callId ≠ []) (htool : tool ≠ [])
    (hplain : PlainJson (.obj entries)) (hordered : KeysOrdered (.obj entries))
    (hnumbers : (Json.obj entries).NumbersIn (Json.ReadsBack HostPlatform.numberToString)) :
    vendor.interpret jsonParse (vendor.writer.toolCall callId tool (.obj entries)) =
      [.toolCall callId tool (vendor.carried (.obj entries))] := by
  have hidRead := nonEmptyString_of_ne_nil hid
  have htoolRead := nonEmptyString_of_ne_nil htool
  have hparsed := parseToolArguments_text hplain hordered hnumbers
  have hrecord := recordSchema_plain hplain
  cases vendor with
  | codex =>
      have hcall : Codex.functionCallSchema (codexFrameWriter.toolCall callId tool (.obj entries)) =
          (nonEmptyString (.str callId)).bind fun callId => (nonEmptyString (.str tool)).bind
            fun name => some { callId, name, arguments := jsonText (.obj entries) } := rfl
      rw [hidRead, htoolRead] at hcall
      simp only [HarnessVendor.interpret, HarnessVendor.writer, Codex.interpret, hcall,
        Option.bind_some, hparsed]
      rfl
  | deepseek =>
      have hevent : DeepSeek.readEvent (deepseekFrameWriter.toolCall callId tool (.obj entries)) =
          some { type := "tool/call", data := .obj [("turn", frameNumber 1), ("step", frameNumber 1),
            ("callId", .str callId), ("name", .str tool),
            ("arguments", .str (jsonText (.obj entries)))] } := rfl
      have hcall : DeepSeek.toolCallEventSchema (.obj [("turn", frameNumber 1),
          ("step", frameNumber 1), ("callId", .str callId), ("name", .str tool),
          ("arguments", .str (jsonText (.obj entries)))]) =
          (nonEmptyString (.str callId)).bind fun callId => (nonEmptyString (.str tool)).bind
            fun name => some { callId, name, arguments := jsonText (.obj entries) } := rfl
      rw [hidRead, htoolRead] at hcall
      simp only [HarnessVendor.interpret, HarnessVendor.writer, DeepSeek.interpret, hevent,
        DeepSeek.eventSteps, if_pos, hcall, Option.bind_some, DeepSeek.toolCallSteps, hparsed]
      rfl
  | claudeCode =>
      have hblock : ClaudeCode.toolUseBlockSchema
          (callBlock "tool_use" "input" callId tool (.obj entries)) =
          (nonEmptyString (.str callId)).bind fun id => (nonEmptyString (.str tool)).bind
            fun name => ((recordSchema (.obj entries)).map some).bind fun arguments =>
              some { id, name, arguments } := rfl
      rw [hidRead, htoolRead, hrecord] at hblock
      obtain ⟨content, hcontent, hsteps⟩ :=
        Option.map_eq_some_iff.mp (contentBlockSteps_call rfl hblock)
      have hread : ClaudeCode.assistantSchema
          (claudeCodeFrameWriter.toolCall callId tool (.obj entries)) = some content := hcontent
      simp only [HarnessVendor.interpret, HarnessVendor.writer, ClaudeCode.interpret, hread]
      exact hsteps
  | pi =>
      have hblock : Pi.toolCallBlockSchema
          (callBlock "toolCall" "arguments" callId tool (.obj entries)) =
          (nonEmptyString (.str callId)).bind fun id => (nonEmptyString (.str tool)).bind
            fun name => ((recordSchema (.obj entries)).map some).bind fun arguments =>
              some { id, name, arguments } := rfl
      rw [hidRead, htoolRead, hrecord] at hblock
      obtain ⟨content, hcontent, hsteps⟩ :=
        Option.map_eq_some_iff.mp (contentBlockSteps_call rfl hblock)
      have hread : Pi.messageEndSchema (piFrameWriter.toolCall callId tool (.obj entries)) =
          (contentSchema (fun block => (Pi.toolCallBlockSchema block).map
            (CallBlock.toJson "toolCall" "arguments"))
            (.arr [callBlock "toolCall" "arguments" callId tool (.obj entries)])).bind some := rfl
      rw [hcontent, Option.bind_some] at hread
      simp only [HarnessVendor.interpret, HarnessVendor.writer, Pi.interpret, hread]
      exact hsteps

/-- **Writers and readers are inverse**, for each vendor and whatever a frame is written for. -/
theorem frames_read_back (vendor : HarnessVendor) {callId tool : JsString}
    {entries : List (JsString × Json)} (hid : callId ≠ []) (htool : tool ≠ [])
    (hplain : PlainJson (.obj entries)) (hordered : KeysOrdered (.obj entries))
    (hnumbers : (Json.obj entries).NumbersIn (Json.ReadsBack HostPlatform.numberToString))
    (text : JsString) (output : Option Json) :
    vendor.interpret jsonParse (vendor.writer.toolCall callId tool (.obj entries)) =
        [.toolCall callId tool (vendor.carried (.obj entries))] ∧
      vendor.interpret jsonParse (vendor.writer.message text) = [.message text] ∧
      vendor.interpret jsonParse (vendor.writer.complete output) =
        [.complete (vendor.finalOutput output)] :=
  ⟨interpret_toolCall vendor hid htool hplain hordered hnumbers, interpret_message vendor text,
    interpret_complete vendor output⟩

end Reading

open scoped SharedOS.Foundation.Reference in
theorem frames_read_back_limit :
    HarnessVendor.codex.interpret jsonParse (HarnessVendor.codex.writer.toolCall "call-1"
        "files.search" (.obj [("limit", .num (.finite 5)), ("offset", .num .negZero)])) =
        [.toolCall "call-1" "files.search"
          (.obj [("limit", .num (.finite 5)), ("offset", .num (.finite 0))])] ∧
      HarnessVendor.codex.interpret jsonParse (HarnessVendor.codex.writer.message "done") =
        [.message "done"] ∧
      HarnessVendor.codex.interpret jsonParse (HarnessVendor.codex.writer.complete none) =
        [.complete none] := by
  refine frames_read_back .codex (by decide) (by decide) ?_ ?_ ?_ "done" none
  · refine .obj (by decide) fun e he => ?_
    rcases List.mem_pair.mp he with rfl | rfl
    · exact .num 5
    · exact .negZero
  · refine .obj (List.pairwise_pair.mpr ⟨by decide, by decide⟩) fun e he => ?_
    · rcases List.mem_pair.mp he with rfl | rfl
      · exact .num _
      · exact .num _
  · refine .obj fun e he => ?_
    rcases List.mem_pair.mp he with rfl | rfl
    · refine .num ⟨?_, ?_⟩
      · rintro q hq u hu
        cases hq
        have hdigit : HostPlatform.numberToString 5 = ([0x35] : JsString) := by decide +kernel
        rw [hdigit] at hu
        rw [List.mem_singleton.mp hu]
        decide
      · rintro q hq
        cases hq
        decide +kernel
    · exact .num ⟨nofun, nofun⟩

end SharedOS.Adapters
