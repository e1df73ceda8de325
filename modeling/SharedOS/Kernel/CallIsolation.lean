/-
SharedOS.Kernel.CallIsolation — what was authorized for a call is what the call executes.

Any number of invocations run interleaved over the tools' maps, sharing ids and arguments as they
like. Each is the kernel's own program, with the hooks of the built-in tools carried out as the
tools write them and everything else answered arbitrarily.

The maps are keyed on the call object, which an invocation builds for itself, so what a hook reads
an earlier hook of the same invocation has written (`Ownership`). The hooks of an invocation come in
order, each at most once (`HookOrder`). So the entry read at the effect is the one left by the one
requirement that was resolved, and that requirement is the one the recorded decision allowed.
-/
import SharedOS.Kernel.AuditMediation
import SharedOS.Kernel.HookOrder
import SharedOS.Kernel.MessageTool
import SharedOS.Kernel.ResourceTool

namespace SharedOS.Kernel

open SharedOS.Foundation SharedOS.Contracts SharedOS.Core

/-! ## Invocations -/

/-- Whose code the three functions of a handler are. -/
inductive HandlerCode where
  /-- `createMessageRequestTool`. -/
  | messageRequest
  /-- `resourceTool`, for the provider of the namespace. -/
  | resource («namespace» : JsString) (spec : ResourceToolSpec)
  | host

/-- The code of a handler. The built-in tools bring a resolver, so a handler without one is not
theirs. -/
def codeOf (tools : ℕ → HandlerCode) (handler : ToolHandler) : HandlerCode :=
  if handler.resolvesRequirement then tools handler.implementation else .host

/-- One call of `invokeTool`. -/
structure ToolInvocation where
  context : AccessContext
  call : ToolCall

section Programs

variable [HostPlatform]

/-- What carries out an operation of the kernel in the invocation whose call object this is. -/
def carryOut (kernel : SharedOSKernel) (tools : ℕ → HandlerCode) (object : ℕ) :
    (o : KernelOp) → ToolM o.Answer
  | .parseArguments handler arguments =>
    match codeOf tools handler with
    | .messageRequest => pure (MessageRequestTool.parseArguments arguments)
    | .resource _ spec => pure (ResourceTool.parseArguments spec arguments)
    | .host => query (.kernel (.parseArguments handler arguments))
  | .resolveRequirement handler context call =>
    match codeOf tools handler with
    | .messageRequest =>
      MessageRequestTool.resolveRequirement handler.implementation object context call
    | .resource «namespace» spec =>
      ResourceTool.resolveRequirement spec «namespace» handler.implementation object context call
    | .host => query (.kernel (.resolveRequirement handler context call))
  | .invokeHandler handler context call =>
    match codeOf tools handler with
    | .messageRequest => MessageRequestTool.invoke kernel handler.implementation object context call
    | .resource «namespace» spec =>
      ResourceTool.invoke spec «namespace» handler.implementation object context call
    | .host => query (.kernel (.invokeHandler handler context call))
  | o => query (.kernel o)

/-- The invocation. Its frozen call is one object, the one both hooks are given. -/
def invocation (kernel : SharedOSKernel) (tools : ℕ → HandlerCode) (task : ToolInvocation) :
    ToolM ToolResult := do
  let object ← query .newCall
  (invokeTool kernel task.context task.call).interpret (carryOut kernel tools object)

/-- Invocations that are out at once. -/
abbrev InvocationPool := Pool ToolMemory ToolInvocation ToolOp.Answer KernelError ToolResult

/-- One step of the invocations over the maps. -/
def invocationsStep (kernel : SharedOSKernel) (tools : ℕ → HandlerCode) :
    InvocationPool → PoolLabel ToolInvocation ToolOp.Answer → Option InvocationPool :=
  poolStep ToolMemory.serve (invocation kernel tools)

end Programs

/-! ## What is claimed of an invocation -/

/-- A message is handed on, or a provider is called. -/
def Effect : ToolOp → Bool
  | .deliverAuthorizedMessage .. | .invokeProvider .. => true
  | _ => false

/-- The requirement is the one the call was authorized on: the sink has accepted the decision that
allows it, and the invocation writes of no other decision that allows. -/
structure AuthorizedOn (call : ToolCall) (requirement : CapabilityRequirement)
    (before asked : List ToolEvent) : Prop where
  recorded : ∃ event, ⟨.kernel (.record event), Settled.fulfilled ()⟩ ∈ before ∧
    AllowedDecision event ∧ event.operationId = some call.id
  only : ∀ event answer, ⟨.kernel (.record event), answer⟩ ∈ asked → AllowedDecision event →
    event.resource = some requirement.resource ∧ event.action = some requirement.action

/-- The requirement is what the resolver answered for the envelope, or the declared one. -/
def ResolvedFor (envelope : FullMessageEnvelope) (context : AccessContext) (handler : ToolHandler)
    (requirement : CapabilityRequirement) (before : List ToolEvent) : Prop :=
  ∃ resolved, ⟨.resolveMessageCapability context envelope, Settled.fulfilled resolved⟩ ∈ before ∧
    requirement = resolved.getD handler.definition.requiredCapability

/-- **An invocation executes what was authorized for it.** -/
structure ExecutesAuthorized (tools : ℕ → HandlerCode) (task : ToolInvocation)
    (asked : List ToolEvent) : Prop where
  /-- A delivered envelope is the one whose requirement was authorized. -/
  delivered : ∀ before after context envelope call answer,
    asked = before ++ ⟨.deliverAuthorizedMessage context envelope call, answer⟩ :: after →
      ∃ handler requirement, codeOf tools handler = .messageRequest ∧ context = task.context ∧
        ResolvedFor envelope context handler requirement before ∧
        AuthorizedOn task.call requirement before asked
  /-- A provider is given the resource and the action that were authorized. -/
  operated : ∀ before after tool operation answer,
    asked = before ++ ⟨.invokeProvider tool operation, answer⟩ :: after →
      operation.context = task.context ∧
        AuthorizedOn task.call { resource := operation.resource, action := operation.action }
          before asked
  /-- One effect at most. -/
  once : asked.countP (fun e => Effect e.1) ≤ 1
  /-- What is read from a map, the invocation has put there. -/
  own : toolCells.ReadsOwn asked

/-! ## The hooks one by one -/

section Hooks

variable [HostPlatform] {kernel : SharedOSKernel} {tools : ℕ → HandlerCode} {tool object : ℕ}
  {context : AccessContext} {call : ToolCall}

/-- The phase of a call an operation belongs to, an effect to the entry of its handler. -/
def toolPhase : ToolOp → ℕ
  | .kernel o => hookPhase o
  | .deliverAuthorizedMessage .. | .invokeProvider .. => 6
  | _ => 0

/-- What carrying out an operation may ask, for the call object. -/
def MayAsk (object : ℕ) (o : KernelOp) : ToolOp → Prop
  | .kernel o' => o' = o ∨ (hookPhase o = 6 ∧ Plain o')
  | .newCall => False
  | .preparedGet _ key => hookPhase o = 6 ∧ key = object
  | .preparedSet _ key _ => hookPhase o = 2 ∧ key = object
  | .parsedGet _ key | .parsedSet _ key _ => (hookPhase o = 2 ∨ hookPhase o = 6) ∧ key = object
  | .createMessageId .. | .resolveMessageCapability .. => hookPhase o = 2
  | .deliverAuthorizedMessage .. | .resolveReply .. | .invokeProvider .. => hookPhase o = 6

omit [HostPlatform] in
theorem uses_liftKernel {α : Type} {S : ToolOp → Prop} {p : KernelM α} {T : KernelOp → Prop}
    (hp : Program.Uses T p) (hS : ∀ o, T o → S (.kernel o)) : Program.Uses S (liftKernel p) :=
  hp.interpret fun o ho => ⟨hS o ho, fun _ => Program.uses_done _⟩

/-- The tail of a request asks only the kernel and the router. -/
theorem uses_answerReply {S : ToolOp → Prop} {request : FullMessageEnvelope}
    {delivery : MessageDeliveryResult} (hkernel : ∀ o, Plain o → S (.kernel o))
    (hrouter : ∀ context request delivery, S (.resolveReply context request delivery)) :
    Program.Uses S (MessageRequestTool.answerReply kernel context call request delivery) := by
  unfold MessageRequestTool.answerReply
  refine ⟨hkernel _ trivial, ?_⟩
  intro aborted
  cases aborted with
  | true => exact Program.uses_done _
  | false =>
      refine ⟨hrouter _ _ _, ?_⟩
      intro resolved
      refine ⟨hkernel _ trivial, ?_⟩
      intro stopped
      cases stopped with
      | true => exact Program.uses_done _
      | false =>
          cases resolved with
          | rejected =>
              show Program.Uses S (liftKernel _ >>= fun _ => MessageRequestTool.refuse _ _ _ _)
              refine Program.Uses.bind ?_ fun _ => Program.uses_done _
              exact uses_liftKernel (plain_reportProviderError ..) hkernel
          | fulfilled candidate =>
              dsimp only [Program.bind]
              rw [if_neg Bool.false_ne_true]
              split <;> exact Program.uses_done _

omit [HostPlatform] in
/-- How a call is parsed: read back, or parsed and kept. -/
theorem finishes_parsedFor {spec : ResourceToolSpec} {v : List ToolEvent}
    {parsed : ParsedResourceCall}
    (h : Program.Finishes (ResourceTool.parsedFor spec tool object call) v (.ok (some parsed))) :
    v = [⟨.parsedGet tool object, some parsed⟩] ∨
      (v = [⟨.parsedGet tool object, none⟩, ⟨.parsedSet tool object parsed, ()⟩] ∧
        spec.parse call.arguments = some parsed) := by
  unfold ResourceTool.parsedFor query at h
  rw [Program.perform_bind, Program.finishes_ask] at h
  obtain ⟨kept, v', rfl, h⟩ := h
  cases kept with
  | some kept =>
      obtain ⟨rfl, heq⟩ := Program.finishes_done.mp h
      cases heq
      exact .inl rfl
  | none =>
      dsimp only at h
      cases hparse : spec.parse call.arguments with
      | none =>
          rw [hparse] at h
          cases (Program.finishes_done.mp h).2
      | some fresh =>
          rw [hparse] at h
          dsimp only at h
          rw [Program.perform_bind, Program.finishes_ask] at h
          obtain ⟨-, v'', rfl, h⟩ := h
          obtain ⟨rfl, heq⟩ := Program.finishes_done.mp h
          cases heq
          exact .inr ⟨rfl, rfl⟩

omit [HostPlatform] in
theorem uses_parsedFor {spec : ResourceToolSpec} {S : ToolOp → Prop}
    (hget : S (.parsedGet tool object)) (hset : ∀ parsed, S (.parsedSet tool object parsed)) :
    Program.Uses S (ResourceTool.parsedFor spec tool object call) := by
  unfold ResourceTool.parsedFor
  refine ⟨hget, ?_⟩
  intro kept
  cases kept with
  | some kept => exact Program.uses_done _
  | none =>
      dsimp only [Program.bind]
      split
      · exact Program.uses_done _
      · exact ⟨hset _, fun _ => Program.uses_done _⟩

theorem uses_resolveMessage {S : ToolOp → Prop} (hid : S (.createMessageId context call))
    (hresolve : ∀ envelope, S (.resolveMessageCapability context envelope))
    (hset : ∀ held, S (.preparedSet tool object held)) :
    Program.Uses S (MessageRequestTool.resolveRequirement tool object context call) := by
  unfold MessageRequestTool.resolveRequirement
  split
  · exact Program.uses_done _
  · refine ⟨hid, ?_⟩
    intro id
    cases id with
    | rejected => exact Program.uses_done _
    | fulfilled id =>
        dsimp only [Program.bind]
        split
        · exact Program.uses_done _
        · refine ⟨hresolve _, ?_⟩
          intro requirement
          cases requirement with
          | rejected => exact Program.uses_done _
          | fulfilled requirement => exact ⟨hset _, fun _ => Program.uses_done _⟩

omit [HostPlatform] in
theorem uses_resolveResource {spec : ResourceToolSpec} {«namespace» : JsString}
    {S : ToolOp → Prop} (hget : S (.parsedGet tool object))
    (hset : ∀ parsed, S (.parsedSet tool object parsed)) :
    Program.Uses S
      (ResourceTool.resolveRequirement spec «namespace» tool object context call) := by
  unfold ResourceTool.resolveRequirement
  apply (uses_parsedFor hget hset).bind
  intro parsed
  cases parsed <;> exact Program.uses_done _

theorem uses_invokeMessage {S : ToolOp → Prop} (hget : S (.preparedGet tool object))
    (hdeliver : ∀ envelope, S (.deliverAuthorizedMessage context envelope call))
    (hkernel : ∀ o, Plain o → S (.kernel o))
    (hrouter : ∀ context request delivery, S (.resolveReply context request delivery)) :
    Program.Uses S (MessageRequestTool.invoke kernel tool object context call) := by
  unfold MessageRequestTool.invoke
  refine ⟨hget, ?_⟩
  intro held
  cases held with
  | none => exact Program.uses_done _
  | some held =>
      show Program.Uses S (if held.callId ≠ call.id then _ else _)
      split
      · exact Program.uses_done _
      · refine ⟨hdeliver _, ?_⟩
        intro answer
        cases answer with
        | threw => exact Program.uses_done _
        | threwAuditUnavailable => exact Program.uses_done _
        | settled delivery =>
            show Program.Uses S (if delivery.taken then _ else _)
            split
            · exact uses_answerReply hkernel hrouter
            · exact Program.uses_done _

theorem uses_invokeResource {spec : ResourceToolSpec} {«namespace» : JsString}
    {S : ToolOp → Prop} (hget : S (.parsedGet tool object))
    (hset : ∀ parsed, S (.parsedSet tool object parsed))
    (hinvoke : ∀ operation, S (.invokeProvider tool operation)) :
    Program.Uses S (ResourceTool.invoke spec «namespace» tool object context call) := by
  unfold ResourceTool.invoke
  apply (uses_parsedFor hget hset).bind
  intro parsed
  cases parsed with
  | none => exact Program.uses_done _
  | some parsed =>
      refine ⟨hinvoke _, ?_⟩
      intro answer
      cases answer <;> exact Program.uses_done _

/-- **What carrying out may ask.** -/
theorem uses_carryOut (o : KernelOp) :
    Program.Uses (MayAsk object o) (carryOut kernel tools object o) := by
  have hself : Program.Uses (MayAsk object o) (query (.kernel o)) :=
    ⟨.inl rfl, fun _ => Program.uses_done _⟩
  cases o with
  | parseArguments handler arguments =>
      cases hcode : codeOf tools handler with
      | messageRequest =>
          simp only [carryOut, hcode]
          exact Program.uses_done _
      | resource «namespace» spec =>
          simp only [carryOut, hcode]
          exact Program.uses_done _
      | host =>
          simp only [carryOut, hcode]
          exact hself
  | resolveRequirement handler context call =>
      cases hcode : codeOf tools handler with
      | messageRequest =>
          simp only [carryOut, hcode]
          exact uses_resolveMessage rfl (fun _ => rfl) fun _ => ⟨rfl, rfl⟩
      | resource «namespace» spec =>
          simp only [carryOut, hcode]
          exact uses_resolveResource ⟨.inl rfl, rfl⟩ fun _ => ⟨.inl rfl, rfl⟩
      | host =>
          simp only [carryOut, hcode]
          exact hself
  | invokeHandler handler context call =>
      cases hcode : codeOf tools handler with
      | messageRequest =>
          simp only [carryOut, hcode]
          exact uses_invokeMessage ⟨rfl, rfl⟩ (fun _ => rfl) (fun _ ho => .inr ⟨rfl, ho⟩)
            fun _ _ _ => rfl
      | resource «namespace» spec =>
          simp only [carryOut, hcode]
          exact uses_invokeResource ⟨.inr rfl, rfl⟩ (fun _ => ⟨.inr rfl, rfl⟩) fun _ => rfl
      | host =>
          simp only [carryOut, hcode]
          exact hself
  | _ => exact hself

theorem within_carryOut (o : KernelOp) :
    Program.Uses (fun o' => toolPhase o' ≤ hookPhase o) (carryOut kernel tools object o) := by
  apply (uses_carryOut o).mono
  intro o' hmay
  cases o' with
  | kernel o' =>
      rcases hmay with rfl | ⟨-, hplain⟩
      · exact le_rfl
      · show hookPhase o' ≤ hookPhase o
        have hfree := hookPhase_of_plain hplain
        omega
  | deliverAuthorizedMessage | invokeProvider => exact le_of_eq (Eq.symm hmay)
  | _ => exact Nat.zero_le _

omit [HostPlatform] in
/-- An operation of the kernel's that is left to others keeps its phase. -/
theorem phases_kernel {o : KernelOp} {m : ℕ} (h : m < hookPhase o) :
    Program.InPhases toolPhase m (query (.kernel o)) := .inr ⟨h, fun _ => trivial⟩

theorem phases_invokeMessage :
    Program.InPhases toolPhase 5 (MessageRequestTool.invoke kernel tool object context call) := by
  unfold MessageRequestTool.invoke
  refine .inl ⟨rfl, ?_⟩
  intro held
  cases held with
  | none => trivial
  | some held =>
      show Program.InPhases toolPhase 5 (if held.callId ≠ call.id then _ else _)
      split
      · trivial
      · refine .inr ⟨show 5 < 6 by omega, ?_⟩
        intro answer
        cases answer with
        | threw => trivial
        | threwAuditUnavailable => trivial
        | settled delivery =>
            apply Program.Uses.inPhases
            show Program.Uses _ (if delivery.taken then _ else _)
            split
            · exact uses_answerReply (fun _ => hookPhase_of_plain) fun _ _ _ => rfl
            · exact Program.uses_done _

theorem phases_invokeResource {spec : ResourceToolSpec} {«namespace» : JsString} :
    Program.InPhases toolPhase 5
      (ResourceTool.invoke spec «namespace» tool object context call) := by
  unfold ResourceTool.invoke
  refine Program.Uses.inPhases_bind (uses_parsedFor ?_ fun _ => ?_) ?_
  · rfl
  · rfl
  intro parsed
  cases parsed with
  | none => trivial
  | some parsed =>
      refine .inr ⟨show 5 < 6 by omega, ?_⟩
      intro answer
      cases answer <;> trivial

/-- Carrying out an operation keeps its phase, and asks in it once. -/
theorem phases_carryOut (o : KernelOp) {m : ℕ} (h : m < hookPhase o) :
    Program.InPhases toolPhase m (carryOut kernel tools object o) := by
  cases o with
  | parseArguments handler arguments =>
      cases hcode : codeOf tools handler with
      | messageRequest =>
          simp only [carryOut, hcode]
          trivial
      | resource «namespace» spec =>
          simp only [carryOut, hcode]
          trivial
      | host =>
          simp only [carryOut, hcode]
          exact phases_kernel h
  | resolveRequirement handler context call =>
      cases hcode : codeOf tools handler with
      | messageRequest =>
          simp only [carryOut, hcode]
          apply Program.Uses.inPhases
          exact uses_resolveMessage rfl (fun _ => rfl) fun _ => rfl
      | resource «namespace» spec =>
          simp only [carryOut, hcode]
          apply Program.Uses.inPhases
          exact uses_resolveResource rfl fun _ => rfl
      | host =>
          simp only [carryOut, hcode]
          exact phases_kernel h
  | invokeHandler handler context call =>
      have hm : m ≤ 5 := Nat.lt_succ_iff.mp h
      cases hcode : codeOf tools handler with
      | messageRequest =>
          simp only [carryOut, hcode]
          exact phases_invokeMessage.mono hm
      | resource «namespace» spec =>
          simp only [carryOut, hcode]
          exact phases_invokeResource.mono hm
      | host =>
          simp only [carryOut, hcode]
          exact phases_kernel h
  | _ => exact phases_kernel h

/-- **The phases of an invocation**, its hooks carried out. -/
theorem phases_invocation (task : ToolInvocation) :
    Program.InPhases toolPhase 0 (invocation kernel tools task) := by
  refine .inl ⟨rfl, ?_⟩
  intro object
  exact phases_invokeTool.interpret within_carryOut fun o _ => phases_carryOut o

/-- **An invocation touches the entries of its own call object alone.** -/
theorem private_invocation (task : ToolInvocation) :
    toolCells.Private (invocation kernel tools task) := by
  intro t o hasks x key htouches
  rcases Program.asks_ask.mp hasks with ⟨rfl, rfl⟩ | ⟨object, t', rfl, hrest⟩
  · obtain ⟨v, hreads | hwrites⟩ := htouches
    · cases hreads
    · cases hwrites
  · refine ⟨_, List.mem_cons_self, ?_⟩
    show some object = some key.object
    obtain ⟨u, t₁, t₂, o', rfl, -, -, hbody⟩ := Program.asks_interpret hrest
    have hmay := (uses_carryOut o').asks hbody
    obtain ⟨v, hreads | hwrites⟩ := htouches
    · cases o with
      | preparedGet tool object' =>
          obtain ⟨held, -, heq⟩ := Option.map_eq_some_iff.mp hreads
          cases heq
          exact congrArg some hmay.2.symm
      | parsedGet tool object' =>
          obtain ⟨parsed, -, heq⟩ := Option.map_eq_some_iff.mp hreads
          cases heq
          exact congrArg some hmay.2.symm
      | _ => cases hreads
    · cases o with
      | preparedSet tool object' held =>
          cases hwrites
          exact congrArg some hmay.2.symm
      | parsedSet tool object' parsed =>
          cases hwrites
          exact congrArg some hmay.2.symm
      | _ => cases hwrites

/-! ## What the hooks leave in a trace -/

omit [HostPlatform] in
theorem resolves_of_codeOf {handler : ToolHandler} (h : codeOf tools handler ≠ .host) :
    handler.resolvesRequirement = true := by
  by_contra hresolves
  exact h (if_neg hresolves)

/-- **A delivery** is of the envelope the handler's hook has just read. -/
theorem delivery_of_asks {o : KernelOp} {t : List ToolEvent} {envelope : FullMessageEnvelope}
    (h : Program.Asks (carryOut kernel tools object o) t
      (.deliverAuthorizedMessage context envelope call)) :
    ∃ handler held, o = .invokeHandler handler context call ∧
      codeOf tools handler = .messageRequest ∧
      t = [⟨.preparedGet handler.implementation object, some held⟩] ∧ held.envelope = envelope := by
  obtain ⟨handler, context', call', rfl⟩ := enters_of_hookPhase ((uses_carryOut o).asks h)
  cases hcode : codeOf tools handler with
  | messageRequest =>
      simp only [carryOut, hcode] at h
      unfold MessageRequestTool.invoke at h
      rcases Program.asks_ask.mp h with ⟨-, hop⟩ | ⟨held, t', rfl, hread⟩
      · cases hop
      cases held with
      | none => exact absurd hread Program.not_asks_done
      | some held =>
          change Program.Asks (if held.callId ≠ call'.id then _ else _) t' _ at hread
          split at hread
          · exact absurd hread Program.not_asks_done
          · rcases Program.asks_ask.mp hread with ⟨rfl, hop⟩ | ⟨answer, t'', rfl, hsent⟩
            · cases hop
              exact ⟨handler, held, rfl, hcode, rfl, rfl⟩
            · -- past the delivery nothing is delivered
              exfalso
              cases answer with
              | threw => exact Program.not_asks_done hsent
              | threwAuditUnavailable => exact Program.not_asks_done hsent
              | settled delivery =>
                  change Program.Asks (if delivery.taken then _ else _) t'' _ at hsent
                  split at hsent
                  · exact (uses_answerReply
                      (S := fun o => o ≠ .deliverAuthorizedMessage context envelope call)
                      (fun _ _ => nofun) fun _ _ _ => nofun).asks hsent rfl
                  · exact Program.not_asks_done hsent
  | resource «namespace» spec =>
      simp only [carryOut, hcode] at h
      exact absurd rfl ((uses_invokeResource
        (S := fun o => o ≠ .deliverAuthorizedMessage context envelope call)
        nofun (fun _ => nofun) fun _ => nofun).asks h)
  | host =>
      simp only [carryOut, hcode] at h
      rcases Program.asks_ask.mp h with ⟨-, hop⟩ | ⟨x, t', -, hrest⟩
      · cases hop
      · exact absurd hrest Program.not_asks_done

/-- **A provider's operation** is of the call as it was parsed. -/
theorem operation_of_asks {o : KernelOp} {t : List ToolEvent} {operation : ResourceOperation}
    (h : Program.Asks (carryOut kernel tools object o) t (.invokeProvider tool operation)) :
    ∃ handler call' «namespace» spec parsed,
      o = .invokeHandler handler operation.context call' ∧
      codeOf tools handler = .resource «namespace» spec ∧
      Program.Finishes (ResourceTool.parsedFor spec handler.implementation object call') t
        (.ok (some parsed)) ∧
      operation.resource = resourceOf «namespace» operation.context parsed ∧
      operation.action = spec.definition.requiredCapability.action := by
  obtain ⟨handler, context', call', rfl⟩ := enters_of_hookPhase ((uses_carryOut o).asks h)
  cases hcode : codeOf tools handler with
  | messageRequest =>
      simp only [carryOut, hcode] at h
      exact absurd rfl ((uses_invokeMessage (S := fun o => o ≠ .invokeProvider tool operation)
        nofun (fun _ => nofun) (fun _ _ => nofun) fun _ _ _ => nofun).asks h)
  | resource «namespace» spec =>
      simp only [carryOut, hcode] at h
      unfold ResourceTool.invoke at h
      rcases Program.asks_bind.mp h with hparse | ⟨parsed, t₁, t₂, rfl, hrun, hrest⟩
      · exact absurd rfl ((uses_parsedFor (S := fun o => o ≠ .invokeProvider tool operation)
          nofun fun _ => nofun).asks hparse)
      cases parsed with
      | none => exact absurd hrest Program.not_asks_done
      | some parsed =>
          rcases Program.asks_ask.mp hrest with ⟨rfl, hop⟩ | ⟨answer, t', rfl, hdone⟩
          · cases hop
            rw [List.append_nil]
            exact ⟨handler, call', «namespace», spec, parsed, rfl, hcode, hrun, rfl, rfl⟩
          · cases answer <;> exact absurd hdone Program.not_asks_done
  | host =>
      simp only [carryOut, hcode] at h
      rcases Program.asks_ask.mp h with ⟨-, hop⟩ | ⟨x, t', -, hrest⟩
      · cases hop
      · exact absurd hrest Program.not_asks_done

omit [HostPlatform] in
/-- What is left to others asks them alone. -/
theorem trace_of_finishes_query {o : ToolOp} {v : List ToolEvent} {r : Except KernelError o.Answer}
    (h : Program.Finishes (query o) v r) : ∀ e ∈ v, e.1 = o :=
  (show Program.Uses (fun o' => o' = o) (query o) from ⟨rfl, fun _ => trivial⟩).trace h

/-- What the message tool's resolution leaves, it leaves with its answer. -/
theorem prepared_of_resolve {x : Settled (Option CapabilityRequirement)} {v : List ToolEvent}
    {tool' key : ℕ} {held : PreparedRequest}
    (hrun : Program.Finishes (MessageRequestTool.resolveRequirement tool object context call) v
      (.ok x)) (h : ⟨.preparedSet tool' key held, ()⟩ ∈ v) :
    ∃ requirement, x = .fulfilled requirement ∧
      ⟨.resolveMessageCapability context held.envelope, Settled.fulfilled requirement⟩ ∈ v := by
  unfold MessageRequestTool.resolveRequirement at hrun
  split at hrun
  · rw [(Program.finishes_done.mp hrun).1] at h
    cases h
  obtain ⟨id, v₁, rfl, hid⟩ := Program.finishes_ask.mp hrun
  cases id with
  | rejected =>
      rw [(Program.finishes_done.mp hid).1] at h
      simp at h
  | fulfilled id =>
      dsimp only [Program.bind] at hid
      split at hid
      · rw [(Program.finishes_done.mp hid).1] at h
        simp at h
      · next envelope henvelope =>
          obtain ⟨resolved, v₂, rfl, hresolved⟩ := Program.finishes_ask.mp hid
          cases resolved with
          | rejected =>
              rw [(Program.finishes_done.mp hresolved).1] at h
              simp at h
          | fulfilled requirement =>
              obtain ⟨_, v₃, rfl, hset⟩ := Program.finishes_ask.mp hresolved
              obtain ⟨rfl, heq⟩ := Program.finishes_done.mp hset
              cases heq
              have hkept : tool' = tool ∧ key = object ∧
                  held = { callId := call.id, envelope } := by simpa using h
              exact ⟨requirement, rfl, by simp [hkept.2.2]⟩

/-- **An entry of the message tool** is left by the resolution of a requirement, and holds the
envelope that requirement was resolved for. -/
theorem prepared_of_mem {o : KernelOp} {x : o.Answer} {v : List ToolEvent} {key : ℕ}
    {held : PreparedRequest} (hrun : Program.Finishes (carryOut kernel tools object o) v (.ok x))
    (h : ⟨.preparedSet tool key held, ()⟩ ∈ v) :
    ∃ handler context' call' requirement,
      (⟨o, x⟩ : KernelEvent) =
        ⟨.resolveRequirement handler context' call', Settled.fulfilled requirement⟩ ∧
      ⟨.resolveMessageCapability context' held.envelope, Settled.fulfilled requirement⟩ ∈ v := by
  obtain ⟨handler, context', call', rfl⟩ :=
    resolves_of_hookPhase ((uses_carryOut o).trace hrun _ h).1
  cases hcode : codeOf tools handler with
  | messageRequest =>
      simp only [carryOut, hcode] at hrun
      obtain ⟨requirement, rfl, hmem⟩ := prepared_of_resolve hrun h
      exact ⟨handler, context', call', requirement, rfl, hmem⟩
  | resource «namespace» spec =>
      simp only [carryOut, hcode] at hrun
      have huses : Program.Uses (fun o => o ≠ .preparedSet tool key held)
          (ResourceTool.resolveRequirement spec «namespace» handler.implementation object context'
            call') := uses_resolveResource nofun fun _ => nofun
      exact absurd rfl (huses.trace hrun _ h)
  | host =>
      simp only [carryOut, hcode] at hrun
      cases trace_of_finishes_query hrun _ h

omit [HostPlatform] in
/-- What parsing a call leaves is what its parser answers. -/
theorem parse_of_parsedFor {spec : ResourceToolSpec} {v : List ToolEvent} {tool' key : ℕ}
    {parsed : ParsedResourceCall} {r : Except KernelError (Option ParsedResourceCall)}
    (hrun : Program.Finishes (ResourceTool.parsedFor spec tool object call) v r)
    (h : ⟨.parsedSet tool' key parsed, ()⟩ ∈ v) : spec.parse call.arguments = some parsed := by
  have huses : Program.Uses (fun o => ∀ parsed, o = .parsedSet tool' key parsed →
      spec.parse call.arguments = some parsed)
      (ResourceTool.parsedFor spec tool object call) := by
    unfold ResourceTool.parsedFor
    refine ⟨nofun, ?_⟩
    intro kept
    cases kept with
    | some kept => exact Program.uses_done _
    | none =>
        dsimp only [Program.bind]
        split
        · exact Program.uses_done _
        · next fresh hparse =>
            refine ⟨fun parsed heq => ?_, fun _ => Program.uses_done _⟩
            cases heq
            exact hparse
  exact huses.trace hrun _ h parsed rfl

/-- **An entry of a resource tool** is the call as its tool parses it, left by the resolution of
the requirement or by the entry of the handler. -/
theorem parsed_of_mem {o : KernelOp} {x : o.Answer} {v : List ToolEvent} {key : ℕ}
    {parsed : ParsedResourceCall}
    (hrun : Program.Finishes (carryOut kernel tools object o) v (.ok x))
    (h : ⟨.parsedSet tool key parsed, ()⟩ ∈ v) :
    hookPhase o = 6 ∨ ∃ handler context' call' «namespace» spec,
      o = .resolveRequirement handler context' call' ∧
      codeOf tools handler = .resource «namespace» spec ∧
      spec.parse call'.arguments = some parsed := by
  refine ((uses_carryOut o).trace hrun _ h).1.symm.imp id fun hphase => ?_
  obtain ⟨handler, context', call', rfl⟩ := resolves_of_hookPhase hphase
  refine ⟨handler, context', call', ?_⟩
  cases hcode : codeOf tools handler with
  | messageRequest =>
      simp only [carryOut, hcode] at hrun
      have huses : Program.Uses (fun o => o ≠ .parsedSet tool key parsed)
          (MessageRequestTool.resolveRequirement handler.implementation object context' call') :=
        uses_resolveMessage nofun (fun _ => nofun) fun _ => nofun
      exact absurd rfl (huses.trace hrun _ h)
  | resource «namespace» spec =>
      simp only [carryOut, hcode] at hrun
      refine ⟨«namespace», spec, rfl, rfl, ?_⟩
      unfold ResourceTool.resolveRequirement at hrun
      rcases Program.finishes_bind.mp hrun with ⟨e, herror, -⟩ | ⟨answer, v₁, v₂, rfl, hparse, hrest⟩
      · cases herror
      have hdone : v₂ = [] := by
        cases answer <;> exact (Program.finishes_done.mp hrest).1
      rw [hdone, List.append_nil] at h
      exact parse_of_parsedFor hparse h
  | host =>
      simp only [carryOut, hcode] at hrun
      cases trace_of_finishes_query hrun _ h

end Hooks

/-! ## One invocation -/

section Invocation

variable [HostPlatform] {kernel : SharedOSKernel} {tools : ℕ → HandlerCode}
  {task : ToolInvocation} {asked before after : List ToolEvent} {rest : ToolM ToolResult}

/-- What an invocation asks past its call object, it asks carrying out one of the kernel's
operations. -/
theorem asks_invocation {op : ToolOp} (h : Program.Asks (invocation kernel tools task) before op)
    (hop : op ≠ .newCall) :
    ∃ object u t₁ t₂ o, before = ⟨.newCall, object⟩ :: (t₁ ++ t₂) ∧
      Program.CarriedOut (carryOut kernel tools object) u t₁ ∧
      Program.Asks (invokeTool kernel task.context task.call) u o ∧
      Program.Asks (carryOut kernel tools object o) t₂ op := by
  rcases Program.asks_ask.mp h with ⟨-, heq⟩ | ⟨object, t', rfl, hrest⟩
  · exact absurd heq hop
  · obtain ⟨u, t₁, t₂, o, rfl, hcarried, hasks, hbody⟩ := Program.asks_interpret hrest
    exact ⟨object, u, t₁, t₂, o, rfl, hcarried, hasks, hbody⟩

/-- The decision that was recorded is the one decision of the invocation. -/
theorem authorizedOn_of_recorded {object : ℕ} {u : KernelTrace} {t : List ToolEvent}
    {authority : ResolvedAuthority} {requirement : CapabilityRequirement}
    (hreaches : Program.Reaches (invocation kernel tools task) asked rest)
    (hcarried : Program.CarriedOut (carryOut kernel tools object) u t)
    (hbefore : t ⊆ before) (hasked : before ⊆ asked)
    (h : Recorded task.call authority requirement u) :
    AuthorizedOn task.call requirement before asked := by
  obtain ⟨event, hrecord, htype, houtcome, hresource, haction, hoperation, -⟩ := h
  have hallowed : AllowedDecision event := ⟨htype, houtcome⟩
  have hmem : ⟨.kernel (.record event), Settled.fulfilled ()⟩ ∈ before := by
    obtain ⟨e, he, hread⟩ := List.mem_filterMap.mp hrecord
    obtain ⟨o, x⟩ := e
    cases o with
    | record event' =>
        cases hread
        obtain ⟨v, hrun, hsub⟩ := hcarried.run_of_mem he
        obtain ⟨x, v', rfl, hdone⟩ := Program.finishes_ask.mp hrun
        obtain ⟨rfl, heq⟩ := Program.finishes_done.mp hdone
        cases heq
        exact hbefore (hsub List.mem_cons_self)
    | _ => cases hread
  refine ⟨⟨event, hmem, hallowed, hoperation⟩, ?_⟩
  intro event' answer hmem' hallowed'
  have hphase : hookPhase (.record event) = 5 := if_pos hallowed
  have hphase' : hookPhase (.record event') = 5 := if_pos hallowed'
  have heq := (phases_invocation task).eq_of_phase hreaches (hasked hmem) hmem'
    (hphase.trans hphase'.symm) (show 0 < hookPhase (.record event) by omega)
  cases heq
  exact ⟨hresource, haction⟩

/-- What has happened when a built-in tool's handler is entered: its requirement was resolved, once,
and the decision on it was recorded. -/
theorem resolved_of_asks {u : KernelTrace} {handler : ToolHandler} {context : AccessContext}
    {parsedCall : ToolCall} (hcode : codeOf tools handler ≠ .host)
    (h : Program.Asks (invokeTool kernel task.context task.call) u
      (.invokeHandler handler context parsedCall)) :
    context = task.context ∧ entries u = [] ∧
      ∃ authority resolved,
        ⟨.resolveRequirement handler context parsedCall, Settled.fulfilled resolved⟩ ∈ u ∧
        Recorded task.call authority
          (resolved.getD handler.definition.requiredCapability) u ∧
        ∀ handler' context' parsedCall' answer,
          ⟨.resolveRequirement handler' context' parsedCall', answer⟩ ∈ u →
            handler' = handler ∧ context' = context ∧ parsedCall' = parsedCall ∧
              answer = .fulfilled resolved := by
  obtain ⟨rfl, hauthorized⟩ := authorized_of_asks h
  obtain ⟨authority, requirement, -, hrequirement, hrecorded, -, -⟩ := hauthorized.decided
  unfold RequirementOf at hrequirement
  rw [if_pos (resolves_of_codeOf hcode)] at hrequirement
  obtain ⟨resolved, hmem, rfl⟩ := hrequirement
  refine ⟨rfl, hauthorized.clear.unentered, authority, resolved, hmem, hrecorded, ?_⟩
  intro handler' context' parsedCall' answer hmem'
  obtain ⟨next, hreaches⟩ := h
  have heq := phases_invokeTool.eq_of_phase hreaches hmem' hmem rfl (show 0 < 2 by omega)
  cases heq
  exact ⟨rfl, rfl, rfl, rfl⟩

/-- **A delivered envelope** is the one whose requirement was authorized. -/
theorem delivered_authorized {context : AccessContext} {envelope : FullMessageEnvelope}
    {call : ToolCall} {answer : DeliveryAnswer}
    (hreaches : Program.Reaches (invocation kernel tools task) asked rest)
    (hown : toolCells.ReadsOwn asked)
    (hasked : asked = before ++ ⟨.deliverAuthorizedMessage context envelope call, answer⟩ :: after) :
    ∃ handler requirement, codeOf tools handler = .messageRequest ∧ context = task.context ∧
      ResolvedFor envelope context handler requirement before ∧
      AuthorizedOn task.call requirement before asked := by
  have hasks := Program.Reaches.asks_prefix (hasked ▸ hreaches)
  have hbegins : before <+: asked := ⟨_, hasked.symm⟩
  obtain ⟨object, u, t₁, t₂, o, rfl, hcarried, hinvoke, hbody⟩ := asks_invocation hasks nofun
  obtain ⟨handler, held, rfl, hcode, rfl, rfl⟩ := delivery_of_asks hbody
  obtain ⟨rfl, -, authority, resolved, hresolved, hrecorded, honly⟩ :=
    resolved_of_asks (by rw [hcode]; exact nofun) hinvoke
  refine ⟨handler, _, hcode, rfl, ⟨resolved, ?_, rfl⟩, ?_⟩
  · -- the entry read is one the invocation wrote, and only the resolution writes one
    obtain ⟨e, he, hwrites⟩ := hown.written hbegins
      (List.mem_cons_of_mem _ (List.mem_append_right _ List.mem_cons_self)) rfl
    obtain rfl := writes_prepared hwrites
    have he₁ : ⟨.preparedSet handler.implementation object held, ()⟩ ∈ t₁ := by
      simpa using he
    obtain ⟨o', x, v, hmem, hrun, hv, hsub⟩ := hcarried.mem he₁
    obtain ⟨handler', context', call', requirement, heq, hresolve⟩ := prepared_of_mem hrun hv
    rw [heq] at hmem
    obtain ⟨rfl, rfl, rfl, hanswer⟩ := honly _ _ _ _ hmem
    cases hanswer
    exact List.mem_cons_of_mem _ (List.mem_append_left _ (hsub hresolve))
  · refine authorizedOn_of_recorded hreaches hcarried ?_ hbegins.subset hrecorded
    exact fun e he => List.mem_cons_of_mem _ (List.mem_append_left _ he)

/-- Within an invocation a call is parsed one way. -/
theorem parsed_alike {object : ℕ} {u : KernelTrace} {t₁ t₂ v : List ToolEvent}
    {handler : ToolHandler} {call : ToolCall} {«namespace» : JsString} {spec : ResourceToolSpec}
    {parsed first : ParsedResourceCall} (hown : toolCells.ReadsOwn asked)
    (hbegins : ⟨.newCall, object⟩ :: (t₁ ++ t₂) <+: asked)
    (hcarried : Program.CarriedOut (carryOut kernel tools object) u t₁)
    (hcode : codeOf tools handler = .resource «namespace» spec) (hunentered : entries u = [])
    (honly : ∀ handler' context' call' answer,
      ⟨.resolveRequirement handler' context' call', answer⟩ ∈ u → handler' = handler ∧ call' = call)
    (hlast : Program.Finishes (ResourceTool.parsedFor spec handler.implementation object call) t₂
      (.ok (some parsed)))
    (hrun : Program.Finishes (ResourceTool.parsedFor spec handler.implementation object call) v
      (.ok (some first))) (hv : v ⊆ t₁ ++ t₂) :
    spec.parse call.arguments = some first := by
  rcases finishes_parsedFor hrun with rfl | ⟨rfl, hparse⟩
  · obtain ⟨e, he, hwrites⟩ := hown.written hbegins
      (List.mem_cons_of_mem _ (hv List.mem_cons_self)) rfl
    obtain rfl := writes_parsed hwrites
    have he' : ⟨.parsedSet handler.implementation object first, ()⟩ ∈ t₁ ++ t₂ := by
      simpa using he
    rcases List.mem_append.mp he' with he₁ | he₂
    · -- written before the handler was entered, so by the one resolution
      obtain ⟨o, x, v, hmem, hfinished, hv, -⟩ := hcarried.mem he₁
      rcases parsed_of_mem hfinished hv with hentry | ⟨handler', context', call', _, spec', rfl, hcode', hparse⟩
      · obtain ⟨handler', context', call', rfl⟩ := enters_of_hookPhase hentry
        have hentered : handler' ∈ entries u := mem_entries.mpr ⟨context', call', x, hmem⟩
        rw [hunentered] at hentered
        cases hentered
      · obtain ⟨rfl, rfl⟩ := honly _ _ _ _ hmem
        rw [hcode] at hcode'
        cases hcode'
        exact hparse
    · exact parse_of_parsedFor hlast he₂
  · exact hparse

/-- **A provider's operation** is on the resource, and the action, that were authorized. -/
theorem operated_authorized {tool : ℕ} {operation : ResourceOperation}
    {answer : PortAnswer ResourceResult}
    (hreaches : Program.Reaches (invocation kernel tools task) asked rest)
    (hown : toolCells.ReadsOwn asked)
    (hasked : asked = before ++ ⟨.invokeProvider tool operation, answer⟩ :: after) :
    operation.context = task.context ∧
      AuthorizedOn task.call { resource := operation.resource, action := operation.action }
        before asked := by
  have hasks := Program.Reaches.asks_prefix (hasked ▸ hreaches)
  have hbegins : before <+: asked := ⟨_, hasked.symm⟩
  obtain ⟨object, u, t₁, t₂, o, rfl, hcarried, hinvoke, hbody⟩ := asks_invocation hasks nofun
  obtain ⟨handler, call, «namespace», spec, parsed, rfl, hcode, hlast, hresource, haction⟩ :=
    operation_of_asks hbody
  obtain ⟨hcontext, hunentered, authority, resolved, hresolved, hrecorded, honly⟩ :=
    resolved_of_asks (by rw [hcode]; exact nofun) hinvoke
  have honly' : ∀ handler' context' call' answer,
      ⟨.resolveRequirement handler' context' call', answer⟩ ∈ u →
        handler' = handler ∧ call' = call := by
    intro handler' context' call' answer hmem
    obtain ⟨hhandler, -, hcall, -⟩ := honly _ _ _ _ hmem
    exact ⟨hhandler, hcall⟩
  have hparse := parsed_alike hown hbegins hcarried hcode hunentered honly' hlast hlast
    (List.subset_append_right _ _)
  -- the resolution parsed the call as the handler does
  obtain ⟨v, hrun, hsub⟩ := hcarried.run_of_mem hresolved
  simp only [carryOut, hcode] at hrun
  unfold ResourceTool.resolveRequirement at hrun
  rcases Program.finishes_bind.mp hrun with ⟨e, herror, -⟩ | ⟨first, v₁, v₂, rfl, hfirst, hrest⟩
  · cases herror
  cases first with
  | none => cases (Program.finishes_done.mp hrest).2
  | some first =>
      obtain ⟨rfl, heq⟩ := Program.finishes_done.mp hrest
      cases heq
      have hparse' := parsed_alike hown hbegins hcarried hcode hunentered honly' hlast hfirst
        fun e he => List.mem_append_left _ (hsub (List.mem_append_left _ he))
      obtain rfl : first = parsed := Option.some.inj (hparse'.symm.trans hparse)
      refine ⟨hcontext, ?_⟩
      rw [hresource, haction]
      refine authorizedOn_of_recorded hreaches hcarried ?_ hbegins.subset hrecorded
      exact fun e he => List.mem_cons_of_mem _ (List.mem_append_left _ he)

/-- An effect is of the last phase, so there is one at most. -/
theorem one_effect (hreaches : Program.Reaches (invocation kernel tools task) asked rest) :
    asked.countP (fun e => Effect e.1) ≤ 1 := by
  refine le_trans (List.countP_mono_left ?_)
    ((phases_invocation task).count_le_one hreaches (show 0 < 6 by omega))
  intro e _ heffect
  obtain ⟨o, x⟩ := e
  cases o with
  | deliverAuthorizedMessage | invokeProvider => rfl
  | _ => cases heffect

end Invocation

/-- **What was authorized is what is executed.** However invocations are interleaved, and whatever
they share, each delivers the envelope whose requirement was authorized for it, gives a provider the
resource and the action that were authorized for it, has one effect at most, and reads nothing that
another has prepared. -/
theorem authorized_is_executed [HostPlatform] (kernel : SharedOSKernel) (tools : ℕ → HandlerCode)
    (labels : List (PoolLabel ToolInvocation ToolOp.Answer)) (pool : InvocationPool)
    (h : run (invocationsStep kernel tools) (Pool.over ToolMemory.empty) labels = some pool) :
    ∀ t ∈ pool.threads, ExecutesAuthorized tools t.task t.asked := by
  -- a call reads of the maps what it wrote itself, whoever else writes to them
  have howned := Cells.pool_owned toolCells_keptBy private_invocation
    (fun key => by cases key <;> rfl) h
  intro t ht
  have hreaches := howned.reaches t ht
  have hown := howned.own t ht
  refine ⟨?_, ?_, one_effect hreaches, hown⟩
  · intro before after context envelope call answer hasked
    exact delivered_authorized hreaches hown hasked
  · intro before after tool operation answer hasked
    exact operated_authorized hreaches hown hasked

namespace Sample

open SharedOS.Core.Sample in
/-- A request to the agent, under the id that every call here has. -/
def requestTo (agentId : JsString) : ToolInvocation where
  context := context
  call :=
    { call with
      arguments := .obj
        [("recipient", .obj [("kind", .str "agent"), ("agentId", .str agentId)]),
          ("payload", .null)] }

/-- The message tool, under the declared capability of the reader. -/
def messenger : ToolHandler := { reader with resolvesRequirement := true }

open SharedOS.Core.Sample in
/-- What answers the operations, where the registry has the one tool. -/
def replies : (o : ToolOp) → o.Answer
  | .kernel (.leasedRegistry _) => some (.ok ⟨[messenger], List.nodup_singleton _⟩)
  | .kernel o => surroundings o
  | .newCall => 0
  | .preparedGet .. => none
  | .preparedSet .. => ()
  | .parsedGet .. => none
  | .parsedSet .. => ()
  | .createMessageId .. => .fulfilled "message"
  | .resolveMessageCapability .. => .fulfilled (some reading)
  | .deliverAuthorizedMessage .. => .threw
  | .resolveReply .. => .rejected
  | .invokeProvider .. => .threw

/-- Two requests under one id, step by step beside each other. -/
def beside : List (PoolLabel ToolInvocation ToolOp.Answer) :=
  .start (requestTo "tina") :: .start (requestTo "eve") ::
    (List.replicate 17 [.answer 0 replies, .answer 1 replies]).flatten

end Sample

open scoped SharedOS.Foundation.Reference in
theorem authorized_is_executed_beside :
    ∃ pool, run (invocationsStep Sample.kernel fun _ => .messageRequest)
        (Pool.over ToolMemory.empty) Sample.beside = some pool ∧
      (pool.threads.map fun t => t.asked.countP fun e => Effect e.1) = [1, 1] ∧
      ∀ t ∈ pool.threads, ExecutesAuthorized (fun _ => .messageRequest) t.task t.asked := by
  have heffects : (run (invocationsStep Sample.kernel fun _ => .messageRequest)
      (Pool.over ToolMemory.empty) Sample.beside).map
        (fun pool => pool.threads.map fun t => t.asked.countP fun e => Effect e.1) =
      some [1, 1] := by decide +kernel
  obtain ⟨pool, hpool, hcounts⟩ := Option.map_eq_some_iff.mp heffects
  exact ⟨pool, hpool, hcounts, authorized_is_executed _ _ _ _ hpool⟩

end SharedOS.Kernel
