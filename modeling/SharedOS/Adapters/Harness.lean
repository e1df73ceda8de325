/-
SharedOS.Adapters.Harness — what one frame of a harness means.

A vendor's frame is a JSON value, and reading it yields steps: a call the model asked for, prose, an
ending. The wire formats share how assistant content is walked: an array of typed blocks, of which
text is prose, one vendor-named kind is a call, and any other is left alone.
-/
import SharedOS.Mcp.Protocol
import SharedOS.Runtime.TurnDecision

namespace SharedOS.Adapters

open SharedOS.Foundation SharedOS.Contracts SharedOS.Mcp SharedOS.Runtime

/-! ## Steps -/

/-- What one frame means once the vendor protocol has interpreted it. -/
inductive HarnessStep where
  | toolCall (callId tool : JsString) (arguments : Json)
  | message (text : JsString)
  | complete (output : Option Json) (metadata : Option Json := none)
  | failed (error : ErrorCandidate)

/-- The step answers a call the model asked for: it is released, or refused. -/
def HarnessStep.isCallOrFailed : HarnessStep → Bool
  | .toolCall .. | .failed _ => true
  | .message _ | .complete .. => false

/-- A call, and not a message or a decision. -/
def HarnessStep.isToolCall : HarnessStep → Bool
  | .toolCall .. => true
  | _ => false

/-- `{ text }`. -/
def textOutput (text : JsString) : Json := .obj [("text", .str text)]

/-! ## Reading a field -/

/-- `z.literal(text)` on a field. -/
def hasText (key text : JsString) (value : Json) : Bool :=
  (field key value).bind stringSchema = some text

/-- `z.boolean()`. -/
def booleanSchema : Json → Option Bool
  | .bool b => some b
  | _ => none

/-- `z.object({...})` on a value that holds nothing else the reader needs. -/
def objectOf {α : Type} (read : Json → Option α) : Json → Option α
  | .obj entries => read (.obj entries)
  | _ => none

/-! ## Content blocks -/

/-- `TextBlockSchema`. -/
def textBlockSchema (block : Json) : Option Json :=
  if hasText "type" "text" block then
    ((field "text" block).bind stringSchema).map fun text =>
      .obj [("type", .str "text"), ("text", .str text)]
  else none

/-- `UnknownBlockSchema`: the object is rebuilt, without `__proto__`. -/
def unknownBlockSchema (block : Json) : Option Json :=
  match (field "type" block).bind stringSchema with
  | some _ => recordSchema block
  | none => none

/-- A call block whose arguments are an object, where they are there. -/
structure CallBlock where
  id : JsString
  name : JsString
  arguments : Option Json

/-- The schema of such a block, by its kind and the key of its arguments. -/
def callBlockSchema (kind argumentsKey : JsString) (block : Json) : Option CallBlock :=
  if hasText "type" kind block then do
    let id ← (field "id" block).bind nonEmptyString
    let name ← (field "name" block).bind nonEmptyString
    let arguments ← optionalField recordSchema argumentsKey block
    some { id, name, arguments }
  else none

/-- The block as its schema leaves it. -/
def CallBlock.toJson (kind argumentsKey : JsString) (call : CallBlock) : Json :=
  .obj (([("type", .str kind), ("id", .str call.id), ("name", .str call.name)] :
    List (JsString × Json)) ++ optionalEntry argumentsKey call.arguments)

/-- `z.array(z.union([TextBlockSchema, call, UnknownBlockSchema]))`. -/
def contentSchema (call : Json → Option Json) : Json → Option (List Json)
  | .arr blocks => blocks.mapM fun block =>
      ((textBlockSchema block).or (call block)).or (unknownBlockSchema block)
  | _ => none

/-- The prose of a block. -/
def blockText (kind : JsString) (block : Json) : Option JsString :=
  if hasText "type" kind block then (field "text" block).bind stringSchema else none

/-- What one block means. -/
def blockSteps (toolCall : Option (Json → Option HarnessStep)) (block : Json) : List HarnessStep :=
  match blockText "text" block with
  | some text => [.message text]
  | none => (toolCall.bind fun read => read block).toList

/-- `contentBlockSteps`. -/
def contentBlockSteps (content : List Json) (toolCall : Option (Json → Option HarnessStep)) :
    List HarnessStep :=
  content.flatMap (blockSteps toolCall)

/-- `parseToolArguments`: what is not an object is refused, and a blank is an empty one. -/
def parseToolArguments (parse : JsString → Option Json) (raw : JsString) : Option Json :=
  if trim raw = [] then some (.obj []) else (parse raw).bind jsonObjectSchema

end SharedOS.Adapters
