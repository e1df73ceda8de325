/-
SharedOS.Kernel.ResourceTool — the handlers that operate on a resource provider.

Each os tool is `resourceTool` of its own specification: a definition, and a parser of its
arguments. The call is parsed once for both hooks. The requirement names the provider's namespace,
the parsed path and the context's owner, and the operation names them again.
-/
import SharedOS.Kernel.InvokeTool
import SharedOS.Kernel.ToolPorts

namespace SharedOS.Kernel

open SharedOS.Foundation SharedOS.Contracts

/-- What sets one resource tool apart from another. A parser that throws has no answer. -/
structure ResourceToolSpec where
  definition : ToolDefinition
  parse : Json → Option ParsedResourceCall

/-- `toToolResult`. -/
def toToolResult [HostPlatform] (call : ToolCall) (context : AccessContext)
    (candidate : Option ResourceResult) : ToolResult :=
  match (candidate.bind resourceResultSchema).filter
      fun result => result.operationId = call.id with
  | none =>
    { callId := call.id
      tool := call.tool
      completedAt := context.now
      outcome := .failed
        { code := "invalid_resource_result"
          message := "The OS file provider returned an invalid result."
          retryable := none
          details := none }
      metadata := none }
  | some result =>
    { callId := call.id
      tool := call.tool
      completedAt := result.completedAt
      outcome := result.outcome
      metadata := result.metadata }

/-- The resource of a call, under the provider's namespace. -/
def resourceOf («namespace» : JsString) (context : AccessContext) (parsed : ParsedResourceCall) :
    ResourceRef where
  «namespace» := «namespace»
  path := parsed.path
  owner := some context.owner

namespace ResourceTool

/-- `parsedFor`. -/
def parsedFor (spec : ResourceToolSpec) (tool object : ℕ) (call : ToolCall) :
    ToolM (Option ParsedResourceCall) := do
  match ← query (.parsedGet tool object) with
  | some parsed => pure (some parsed)
  | none =>
    match spec.parse call.arguments with
    | none => pure none
    | some parsed => do
      query (.parsedSet tool object parsed)
      pure (some parsed)

/-- `parseArguments`. -/
def parseArguments (spec : ResourceToolSpec) (arguments : Json) : Settled (Option Json) :=
  match spec.parse arguments with
  | none => .rejected
  | some _ => .fulfilled (some arguments)

/-- `resolveRequirement`. -/
def resolveRequirement (spec : ResourceToolSpec) («namespace» : JsString) (tool object : ℕ)
    (context : AccessContext) (call : ToolCall) : ToolM (Settled (Option CapabilityRequirement)) := do
  match ← parsedFor spec tool object call with
  | none => pure .rejected
  | some parsed =>
    pure (.fulfilled (some
      { resource := resourceOf «namespace» context parsed
        action := spec.definition.requiredCapability.action }))

/-- `invoke`. -/
def invoke [HostPlatform] (spec : ResourceToolSpec) («namespace» : JsString) (tool object : ℕ)
    (context : AccessContext) (call : ToolCall) : ToolM (PortAnswer ToolResult) := do
  match ← parsedFor spec tool object call with
  | none => pure .threw
  | some parsed => do
    match ← query (.invokeProvider tool
        { operationId := call.id
          context := context
          resource := resourceOf «namespace» context parsed
          action := spec.definition.requiredCapability.action
          input := parsed.input }) with
    | .threw => pure .threw
    | .threwAuditUnavailable => pure .threwAuditUnavailable
    | .returned candidate => pure (.returned (some (toToolResult call context candidate)))

end ResourceTool

end SharedOS.Kernel
