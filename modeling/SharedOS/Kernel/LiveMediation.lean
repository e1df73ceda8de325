/-
SharedOS.Kernel.LiveMediation — what the trail says of a call whose tool's code writes into it.

The promises about the trail of `Kernel.AuditMediation`, for `Live.invokeTool`: what stands when the
tool's code may leave anything in the objects the call shares with it, and what does not.

Every run keeps its one record, and a failed record refuses or changes nothing, as before. What may
fail is the world the call was decided in. The gates that come after the resolver see the context it
left (`LeftIn`), so a resolver that writes another owner into it has its requirement checked against
that one; and the record of the decision names the resource as it stands when it is written
(`RecordedOn`). `handler_entered_iff` says exactly when an entered handler had been authorized for its
call's own context: where the resolver left that as it was handed it (`LeftAsHanded`).
`owner_rewritten_enters` is a call that enters one for another world.

The proof goes through the gates with the rules of `Kernel.AuditMediation`. What it carries to the
handler is how the gates were passed (`Passed`). The order of the hooks (`phases_invokeTool`) makes
the resolver's answer, the two readings after it and the record of the decision one of a kind in
their run, which is what turns `Passed` into a condition on the run alone.
-/
import SharedOS.Kernel.AuditMediation
import SharedOS.Kernel.HookOrder
import SharedOS.Kernel.LiveCall

namespace SharedOS.Kernel.Live

open SharedOS.Foundation SharedOS.Contracts SharedOS.Core

section Runs

variable [HostPlatform] {kernel : SharedOSKernel} {held : Held} {loaded : Bool}
  {context : AccessContext} {call : ToolCall} {authority : ResolvedAuthority}
  {handler : ToolHandler} {parsedCall : ToolCall}

/-! ## The record about the call -/

theorem reserved_decideAndRecord {requirement : CapabilityRequirement} {consume : Bool}
    {operationId : Option JsString} :
    Reserved (decideAndRecord kernel held context authority requirement consume operationId) := by
  unfold decideAndRecord
  apply (quiet_decideOnGrants ..).reserved.bind
  intro explained
  apply (quiet_contextNow _).reserved.bind
  intro now
  apply (quiet_requirementNow _).reserved.bind
  intro request
  apply reserved_recordAuthorizationDecision.bind
  intro _
  trivial

theorem steady_runHandler (c : AuthorizedCall) : Steady (runHandler kernel held c) := by
  unfold runHandler
  apply steady_quiet_bind quiet_throwIfAborted
  intro _
  refine steady_ask_bind id fun answer => ?_
  apply steady_quiet_bind (quiet_callNow _)
  intro answered
  apply steady_settlePort_bind
  intro result
  apply steady_quiet_bind (quiet_callNow _)
  intro settled
  exact steady_recordResult result

theorem steady_decideCall {requirement : CapabilityRequirement} :
    Steady (decideCall kernel held loaded context call authority handler parsedCall
      requirement) := by
  unfold decideCall
  dsimp only
  split
  · apply reserved_decideAndRecord.fixedFrom_bind
    intro crossing
    apply steady_quiet_bind (quiet_contextNow _)
    intro now
    exact steady_quiet_bind (quiet_requirementNow _) fun _ => steady_refuse
  split
  · exact steady_refuse
  · apply reserved_decideAndRecord.fixedFrom_bind
    intro decision
    apply steady_quiet_bind (quiet_contextNow _)
    intro now
    apply steady_quiet_bind (quiet_requirementNow _)
    intro read
    split
    · exact steady_refuse
    · exact steady_runHandler _

theorem steady_resolveCall :
    Steady (resolveCall kernel loaded context call authority handler parsedCall) := by
  unfold resolveCall
  dsimp only
  split
  · refine steady_ask_bind id fun answer => ?_
    apply steady_quiet_bind (quiet_contextNow _)
    intro left
    cases answer with
    | rejected => exact steady_quiet_bind (quiet_reportProviderError ..) fun _ => steady_refuse
    | fulfilled resolved => exact steady_decideCall
  · exact steady_decideCall

theorem steady_answerCall (resolution : AuthorityResolution) :
    Steady (answerCall kernel context call loaded resolution) := by
  cases resolution with
  | unavailable code detail => exact steady_refuse
  | resolved authority =>
      apply steady_findCatalogThen
      intro tools
      apply steady_findToolThen
      intro handler
      apply steady_discoverToolThen
      exact steady_parseCallThen fun parsedCall => steady_resolveCall

/-- A call ends one way from the record about it on, whatever its tool's code writes. -/
theorem steady_invokeTool : Steady (invokeTool kernel context call) := by
  unfold invokeTool
  apply steady_quiet_bind quiet_throwIfAborted
  intro _
  split
  · exact steady_refuse
  · refine steady_ask_bind id fun leased => ?_
    cases leased with
    | some resolution => exact steady_answerCall resolution
    | none => exact reserved_loadAuthority.fixedFrom_bind steady_answerCall

/-! ## What is read once -/

omit [HostPlatform] in
theorem free_contextNow {held : Bool} {since : Await} (hsince : since ≠ .resolved)
    (was : AccessContext) : Free (contextNow held since was) := by
  unfold contextNow
  split
  · exact ⟨by cases since <;> first | rfl | exact absurd rfl hsince, fun _ => trivial⟩
  · exact Program.uses_done _

omit [HostPlatform] in
theorem free_requirementNow {held : Bool} {since : Await} (hsince : since ≠ .decided)
    (was : CapabilityRequirement) : Free (requirementNow held since was) := by
  unfold requirementNow
  split
  · exact ⟨by cases since <;> first | rfl | exact absurd rfl hsince, fun _ => trivial⟩
  · exact Program.uses_done _

omit [HostPlatform] in
theorem free_callNow {since : Await} (hresolved : since ≠ .resolved) (hdecided : since ≠ .decided)
    (c : AuthorizedCall) : Free (callNow held since c) :=
  (free_contextNow hresolved _).bind fun _ =>
    (free_requirementNow hdecided _).bind fun _ => Program.uses_done _

theorem phases_runHandler (c : AuthorizedCall) :
    Program.InPhases hookPhase 5 (runHandler kernel held c) := by
  unfold runHandler
  apply (free_of_plain plain_throwIfAborted).inPhases_bind
  intro _
  refine Program.inPhases_perform_bind.mpr (.inr ⟨show 5 < 6 by omega, fun answer => ?_⟩)
  apply (free_callNow (by decide) (by decide) c).inPhases_bind
  intro answered
  apply free_settlePort.inPhases_bind
  intro result
  apply (free_callNow (by decide) (by decide) answered).inPhases_bind
  intro settled
  exact (free_recordResult result).inPhases

theorem phases_decideAndRecord_bind {requirement : CapabilityRequirement} {consume : Bool}
    {operationId : Option JsString} {f : AuthorizationDecision → KernelM ToolResult}
    (hf : ∀ decision, Program.InPhases hookPhase 5 (f decision)) :
    Program.InPhases hookPhase 3
      (decideAndRecord kernel held context authority requirement consume operationId >>= f) := by
  have hrecorded (now : AccessContext) (request : CapabilityRequirement)
      (explained : Explained) : Program.InPhases hookPhase 4
        ((recordAuthorizationDecision now { requirement with resource := request.resource }
          explained.decision consume (some authority.snapshot.hash) operationId
          explained.explanation >>= fun _ => pure explained.decision) >>= f) := by
    rw [Program.bind_assoc]
    exact phases_recordAuthorizationDecision_bind (hf _)
  unfold decideAndRecord
  rw [Program.bind_assoc]
  apply (free_of_plain (plain_decideOnGrants ..)).inPhases_bind
  intro explained
  rw [Program.bind_assoc]
  apply (free_contextNow (by decide) _).inPhases_bind
  intro now
  rw [Program.bind_assoc]
  unfold requirementNow
  split
  · exact .inr ⟨show 3 < 4 by omega, fun request => hrecorded now request explained⟩
  · exact (hrecorded now requirement explained).mono (by omega)

theorem phases_decideCall {requirement : CapabilityRequirement} :
    Program.InPhases hookPhase 3
      (decideCall kernel held loaded context call authority handler parsedCall requirement) := by
  have hread {f : AccessContext → CapabilityRequirement → KernelM ToolResult}
      (hf : ∀ now read, Program.InPhases hookPhase 5 (f now read)) :
      Program.InPhases hookPhase 5 (contextNow held.context .recorded context >>= fun now =>
        requirementNow held.requirement .recorded requirement >>= f now) :=
    (free_contextNow (by decide) _).inPhases_bind fun now =>
      (free_requirementNow (by decide) _).inPhases_bind (hf now)
  unfold decideCall
  dsimp only
  split
  · exact phases_decideAndRecord_bind fun crossing => hread fun now read => free_refuse.inPhases
  split
  · exact free_refuse.inPhases
  · apply phases_decideAndRecord_bind
    intro decision
    apply hread
    intro now read
    split
    · exact free_refuse.inPhases
    · exact phases_runHandler _

theorem phases_resolveCall :
    Program.InPhases hookPhase 1
      (resolveCall kernel loaded context call authority handler parsedCall) := by
  unfold resolveCall
  dsimp only
  split
  · refine Program.inPhases_perform_bind.mpr (.inr ⟨show 1 < 2 by omega, fun answer => ?_⟩)
    refine Program.inPhases_perform_bind.mpr (.inr ⟨show 2 < 3 by omega, fun left => ?_⟩)
    cases answer with
    | rejected => exact (free_reportCallError.bind fun _ => free_refuse).inPhases
    | fulfilled resolved => exact phases_decideCall
  · exact phases_decideCall.mono (by omega)

theorem phases_answerCall (resolution : AuthorityResolution) :
    Program.InPhases hookPhase 0 (answerCall kernel context call loaded resolution) := by
  cases resolution with
  | unavailable code detail => exact free_refuse.inPhases
  | resolved authority =>
      apply phases_findCatalogThen
      intro tools
      apply phases_findToolThen
      intro handler
      apply phases_discoverToolThen
      exact phases_parseCallThen fun parsedCall => phases_resolveCall

/-- The requirement is resolved, the context left is read, the resource decided on is read again and
the decision is written in this order, each once. -/
theorem phases_invokeTool : Program.InPhases hookPhase 0 (invokeTool kernel context call) := by
  unfold invokeTool
  apply (free_of_plain plain_throwIfAborted).inPhases_bind
  intro _
  split
  · exact free_refuse.inPhases
  · refine Program.inPhases_perform_bind.mpr (.inl ⟨rfl, fun leased => ?_⟩)
    cases leased with
    | some resolution => exact phases_answerCall resolution
    | none => exact free_loadAuthority.inPhases_bind phases_answerCall

/-! ## What an entered handler has behind it -/

/-- The context the gates after the resolver saw. -/
def LeftIn (handler : ToolHandler) (context left : AccessContext) (t : KernelTrace) : Prop :=
  if handler.resolvesRequirement then ⟨.heldContext .resolved context, left⟩ ∈ t
  else left = context

/-- The resource the record of the decision names: what the resolver's own answer had come to, or
the declared resource as it was. -/
inductive RecordedOn (handler : ToolHandler) (context : AccessContext) (parsedCall : ToolCall)
    (t : KernelTrace) (requirement : CapabilityRequirement) : ResourceRef → Prop
  | held {read : CapabilityRequirement} (hresolves : handler.resolvesRequirement = true)
      (hanswered : ⟨.resolveRequirement handler context parsedCall,
        Settled.fulfilled (some requirement)⟩ ∈ t)
      (hread : ⟨.heldRequirement .decided requirement, read⟩ ∈ t) :
      RecordedOn handler context parsedCall t requirement read.resource
  | frozen (hdeclared : handler.resolvesRequirement = true →
        ⟨.resolveRequirement handler context parsedCall, Settled.fulfilled none⟩ ∈ t) :
      RecordedOn handler context parsedCall t requirement requirement.resource

/-- The gates, as they were passed. -/
structure Passed (kernel : SharedOSKernel) (context : AccessContext) (call : ToolCall)
    (handler : ToolHandler) (parsedCall : ToolCall) (t : KernelTrace)
    (authority : ResolvedAuthority) (requirement : CapabilityRequirement) (left : AccessContext)
    (resource : ResourceRef) : Prop where
  offered : Offered kernel context call authority handler t
  required : RequirementOf handler context parsedCall t requirement
  leftIn : LeftIn handler context left t
  world : requirement.resource.owner.getD left.owner = left.owner
  within : WithinDeclared handler.definition requirement left
  read : RecordedOn handler context parsedCall t requirement resource
  recorded : Recorded call authority { requirement with resource } t

/-- **What has happened when a handler is entered.** -/
structure Entering (kernel : SharedOSKernel) (context : AccessContext) (call : ToolCall)
    (handler : ToolHandler) (parsedCall : ToolCall) (t : KernelTrace) : Prop where
  clear : Clear t
  passed : ∃ authority requirement left resource,
    Passed kernel context call handler parsedCall t authority requirement left resource
  unaborted : t.getLast? = some ⟨.signalAborted, false⟩

/-- A handler is entered behind its gates. -/
def EntryGuarded (kernel : SharedOSKernel) (context : AccessContext) (call : ToolCall)
    (t : KernelTrace) : KernelOp → Prop
  | .invokeHandler handler _ parsedCall => Entering kernel context call handler parsedCall t
  | _ => True

instance : GuardsHandlers (EntryGuarded kernel context call) where
  other {_ o} h := by
    cases o with
    | invokeHandler => exact h.elim
    | _ => trivial

section Frame

variable {t : KernelTrace} {requirement : CapabilityRequirement} {left : AccessContext}
  {resource : ResourceRef}

omit [HostPlatform] in
theorem LeftIn.append (h : LeftIn handler context left t) (u : KernelTrace) :
    LeftIn handler context left (t ++ u) := by
  unfold LeftIn at h ⊢
  split
  · next hresolves =>
      rw [if_pos hresolves] at h
      exact List.mem_append_left u h
  · next hresolves =>
      rw [if_neg hresolves] at h
      exact h

omit [HostPlatform] in
theorem RecordedOn.append (h : RecordedOn handler context parsedCall t requirement resource)
    (u : KernelTrace) : RecordedOn handler context parsedCall (t ++ u) requirement resource := by
  cases h with
  | held hresolves hanswered hread =>
      exact .held hresolves (List.mem_append_left u hanswered) (List.mem_append_left u hread)
  | frozen hdeclared => exact .frozen fun hresolves => List.mem_append_left u (hdeclared hresolves)

theorem Passed.append
    (h : Passed kernel context call handler parsedCall t authority requirement left resource)
    (u : KernelTrace) :
    Passed kernel context call handler parsedCall (t ++ u) authority requirement left resource where
  offered := h.offered.append u
  required := h.required.append u
  leftIn := h.leftIn.append u
  world := h.world
  within := h.within
  read := h.read.append u
  recorded := h.recorded.append u

end Frame

/-! ## The gates -/

section Gates

variable {h : KernelTrace} {own : AccessContext} {requirement : CapabilityRequirement}

omit [HostPlatform] in
theorem unwritten_silent {t u : KernelTrace} (ht : Unwritten t) (hu : ∀ e ∈ u, Silent e.1) :
    Unwritten (t ++ u) := by
  constructor
  · rw [records_append, records_silent hu, List.append_nil]
    exact ht.accepted
  · rw [invokedRecords_append, ht.unwritten]
    unfold invokedRecords
    rw [records_silent hu]
    rfl

omit [HostPlatform] in
/-- The call read again, whatever has been written so far: the same call, and nothing written. -/
theorem wp_callNow_bind {A : KernelTrace → KernelOp → Prop} [GuardsHandlers A] {since : Await}
    {c : AuthorizedCall} {f : AuthorizedCall → KernelM ToolResult}
    {Q : KernelTrace → Except KernelError ToolResult → Prop}
    (hnext : ∀ u context requirement, (∀ e ∈ u, Silent e.1) →
      Program.wp A (f { c with context, requirement }) Q (h ++ u)) :
    Program.wp A (callNow held since c >>= f) Q h := by
  have hreads (u : KernelTrace) (context : AccessContext) (hu : ∀ e ∈ u, Silent e.1) :
      Program.wp A (requirementNow held.requirement since c.requirement >>= fun requirement =>
        f { c with context, requirement }) Q (h ++ u) := by
    unfold requirementNow
    split
    · refine wp_ask_bind.mpr ⟨GuardsHandlers.other trivial, fun requirement => ?_⟩
      rw [List.append_assoc]
      refine hnext _ context requirement fun e he => ?_
      rcases List.mem_append.mp he with hold | hnew
      · exact hu e hold
      · rw [List.mem_singleton.mp hnew]
        trivial
    · exact hnext u context _ hu
  unfold callNow
  rw [Program.bind_assoc]
  simp only [Program.bind_assoc]
  unfold contextNow
  split
  · refine wp_ask_bind.mpr ⟨GuardsHandlers.other trivial, fun context => ?_⟩
    refine hreads _ context fun e he => ?_
    rw [List.mem_singleton.mp he]
    trivial
  · have hhere := hreads [] c.context fun e he => absurd he List.not_mem_nil
    rw [List.append_nil] at hhere
    exact hhere

/-- **The handler, and the one record of what came of it.** -/
theorem wp_runHandler {c : AuthorizedCall} (hcall : c.call = call) (hclear : Clear h)
    (hpassed : ∃ authority requirement left resource,
      Passed kernel context call c.handler c.parsedCall h authority requirement left resource) :
    Program.wp (EntryGuarded kernel context call) (runHandler kernel held c) (Accounted call) h := by
  obtain ⟨authority, requirement, left, resource, hpassed⟩ := hpassed
  unfold runHandler
  apply wp_quiet_bind quiet_throwIfAborted hclear
  intro t _ hrun hclear'
  apply wp_ask_bind.mpr
  have hunaborted : (h ++ t).getLast? = some ⟨.signalAborted, false⟩ := by
    rw [finishes_throwIfAborted hrun, List.getLast?_append]
    rfl
  refine ⟨⟨hclear', ⟨_, _, _, _, hpassed.append t⟩, hunaborted⟩, fun answer => ?_⟩
  have hopen := hclear'.toUnwritten.snoc
    (show recordOf ⟨.invokeHandler c.handler c.context c.parsedCall, answer⟩ = none from rfl)
  apply wp_callNow_bind
  intro u context₁ requirement₁ hu
  have hentered : ⟨.invokeHandler c.handler c.context c.parsedCall, answer⟩ ∈
      h ++ t ++ [⟨.invokeHandler c.handler c.context c.parsedCall, answer⟩] ++ u := by simp
  refine wp_settlePort_bind (unwritten_silent hopen hu) (by exact hentered) ?_
  intro v result hopen' hanswered
  apply wp_callNow_bind
  intro w context₂ requirement₂ hw
  apply wp_recordResult result (unwritten_silent hopen' hw)
  intro hdenied
  obtain ⟨handler, handed, parsedCall, candidate, hmem, haccept⟩ := hanswered hdenied
  change acceptToolResult c.call candidate = _ at haccept
  rw [hcall] at haccept
  exact ⟨handler, handed, parsedCall, candidate, List.mem_append_left w hmem, haccept⟩

/-- **Deciding and recording.** The record names the resource as it stands by then. -/
theorem wp_decideAndRecord_bind {A : KernelTrace → KernelOp → Prop} [GuardsHandlers A]
    {consume : Bool} {f : AuthorizationDecision → KernelM ToolResult} (hclear : Clear h)
    (hnext : ∀ u decision request, Clear (h ++ u) →
      (if held.requirement then ⟨.heldRequirement .decided requirement, request⟩ ∈ h ++ u
        else request = requirement) →
      (decision.allowed = true →
        Recorded call authority { requirement with resource := request.resource } (h ++ u)) →
      Program.wp A (f decision) (Accounted call) (h ++ u)) :
    Program.wp A
      (decideAndRecord kernel held context authority requirement consume (some call.id) >>= f)
      (Accounted call) h := by
  unfold decideAndRecord
  rw [Program.bind_assoc]
  apply wp_quiet_bind (quiet_decideOnGrants ..) hclear
  intro t₁ explained _ hclear₁
  rw [Program.bind_assoc]
  apply wp_quiet_bind (quiet_contextNow _) hclear₁
  intro t₂ now _ hclear₂
  rw [Program.bind_assoc]
  apply wp_quiet_bind (quiet_requirementNow _) hclear₂
  intro t₃ request hrun hclear₃
  rw [Program.bind_assoc]
  apply wp_recordAuthorizationDecision_bind hclear₃
  intro t₄ event hclear₄ hmem hinput
  have hread := finishes_requirementNow hrun
  simp only [List.append_assoc] at hclear₄ hmem ⊢
  refine hnext _ _ request hclear₄ ?_ (recorded_of_input hmem hinput)
  split
  · next hheld =>
      rw [if_pos hheld] at hread
      simp [hread]
  · next hfrozen =>
      rw [if_neg hfrozen] at hread
      exact hread

theorem wp_decideCall (hclear : Clear h) (hoffered : Offered kernel own call authority handler h)
    (hrequired : RequirementOf handler own parsedCall h requirement)
    (hleft : LeftIn handler own context h)
    (hheld : held.requirement = true → handler.resolvesRequirement = true ∧
      ⟨.resolveRequirement handler own parsedCall, Settled.fulfilled (some requirement)⟩ ∈ h)
    (hfrozen : held.requirement = false → handler.resolvesRequirement = true →
      ⟨.resolveRequirement handler own parsedCall, Settled.fulfilled none⟩ ∈ h) :
    Program.wp (EntryGuarded kernel own call)
      (decideCall kernel held loaded context call authority handler parsedCall requirement)
      (Accounted call) h := by
  have hsame : (if loaded then { authority with context } else authority).snapshot =
      authority.snapshot := by
    split <;> rfl
  unfold decideCall
  dsimp only
  split
  · apply wp_decideAndRecord_bind hclear
    intro t crossing request hclear₁ _ _
    apply wp_quiet_bind (quiet_contextNow _) hclear₁
    intro u now _ hclear₂
    apply wp_quiet_bind (quiet_requirementNow _) hclear₂
    intro v read _ hclear₃
    exact wp_refuse hclear₃
  split
  · exact wp_refuse hclear
  · next hworld hceiling =>
      apply wp_decideAndRecord_bind hclear
      intro t decision request hclear₁ hread hrecorded
      apply wp_quiet_bind (quiet_contextNow _) hclear₁
      intro u now _ hclear₂
      apply wp_quiet_bind (quiet_requirementNow _) hclear₂
      intro v read _ hclear₃
      split
      · exact wp_refuse hclear₃
      · next hallowed =>
          have hpassed : Passed kernel own call handler parsedCall (h ++ t) authority requirement
              context request.resource :=
            { offered := hoffered.append t
              required := hrequired.append t
              leftIn := hleft.append t
              world := requirementBelongsToContext_iff.mp (by simpa using hworld)
              within := requirementIsWithinDefinition_iff.mp (by simpa using hceiling)
              read := by
                split at hread
                · next hshared =>
                    obtain ⟨hresolves, hanswered⟩ := hheld hshared
                    exact .held hresolves (List.mem_append_left t hanswered) hread
                · next hunheld =>
                    rw [hread]
                    refine .frozen fun hresolves => List.mem_append_left t ?_
                    exact hfrozen (Bool.eq_false_iff.mpr hunheld) hresolves
              recorded := by
                have hrecorded' := hrecorded (by simpa using hallowed)
                unfold Recorded at hrecorded' ⊢
                rw [hsame] at hrecorded'
                exact hrecorded' }
          exact wp_runHandler
            (c := { context := now, call, handler, parsedCall, requirement := read, decision }) rfl
            hclear₃ ⟨authority, requirement, context, request.resource, (hpassed.append u).append v⟩

theorem wp_resolveCall (hclear : Clear h)
    (hoffered : Offered kernel context call authority handler h) :
    Program.wp (EntryGuarded kernel context call)
      (resolveCall kernel loaded context call authority handler parsedCall) (Accounted call) h := by
  unfold resolveCall
  dsimp only
  split
  · next hresolves =>
      apply wp_ask_bind.mpr
      refine ⟨trivial, fun answer => ?_⟩
      have hclear₁ := hclear.asked
        (show Silent (.resolveRequirement handler context parsedCall) from trivial) answer
      show Program.wp _ (ask (.heldContext .resolved context) >>= _) _ _
      apply wp_ask_bind.mpr
      refine ⟨trivial, fun left => ?_⟩
      have hclear₂ := hclear₁.asked (show Silent (.heldContext .resolved context) from trivial) left
      cases answer with
      | rejected =>
          apply wp_quiet_bind (quiet_reportProviderError ..) hclear₂
          intro t _ _ hclear₃
          exact wp_refuse hclear₃
      | fulfilled resolved =>
          apply wp_decideCall hclear₂ ((hoffered.append _).append _)
          · unfold RequirementOf
            rw [if_pos hresolves]
            exact ⟨resolved, by simp, rfl⟩
          · unfold LeftIn
            rw [if_pos hresolves]
            simp
          · intro hanswered
            cases resolved with
            | none => cases hanswered
            | some requirement => exact ⟨hresolves, by simp⟩
          · intro hdeclared _
            cases resolved with
            | none => simp
            | some requirement => cases hdeclared
  · next hresolves =>
      apply wp_decideCall hclear hoffered
      · unfold RequirementOf
        rw [if_neg hresolves]
      · unfold LeftIn
        rw [if_neg hresolves]
      · exact nofun
      · exact fun _ hresolves' => absurd hresolves' hresolves

theorem wp_answerCall {resolution : AuthorityResolution} (hclear : Clear h)
    (htrace : call.traceId = context.traceId) :
    Program.wp (EntryGuarded kernel context call)
      (answerCall kernel context call loaded resolution) (Accounted call) h := by
  cases resolution with
  | unavailable code detail => exact wp_refuse hclear
  | resolved authority =>
      apply wp_findCatalogThen hclear htrace
      intro u handler parsedCall hclear' hoffered
      exact wp_resolveCall hclear' hoffered

theorem wp_invokeTool :
    Program.wp (EntryGuarded kernel context call) (invokeTool kernel context call)
      (Accounted call) [] := by
  have hempty : Clear [] := ⟨fun _ hr => absurd hr List.not_mem_nil, rfl, rfl⟩
  unfold invokeTool
  apply wp_quiet_bind quiet_throwIfAborted hempty
  intro t _ _ hclear
  split
  · exact wp_refuse hclear
  · next htrace =>
      have htrace' : call.traceId = context.traceId := by simpa using htrace
      apply wp_ask_bind.mpr
      refine ⟨trivial, fun leased => ?_⟩
      have hclear' := hclear.asked
        (show Silent (.leasedAuthority (turnAuthorityKey context)) from trivial) leased
      cases leased with
      | some resolution => exact wp_answerCall hclear' htrace'
      | none =>
          apply wp_loadAuthority_bind hclear'
          intro u resolution hclear''
          exact wp_answerCall hclear'' htrace'

end Gates

/-! ## When the trail holds for the call's own context -/

/-- **What a resolver must leave.** The context it was handed names the owner it named, unless
neither what it answered nor what its tool declares names one. And what it answered is not moved to
another resource between the decision and its record. -/
structure LeftAsHanded (handler : ToolHandler) (context : AccessContext) (parsedCall : ToolCall)
    (t : KernelTrace) : Prop where
  owner : ∀ resolved left,
    ⟨.resolveRequirement handler context parsedCall, Settled.fulfilled resolved⟩ ∈ t →
    ⟨.heldContext .resolved context, left⟩ ∈ t → left.owner = context.owner ∨
      ((resolved.getD handler.definition.requiredCapability).resource.owner = none ∧
        handler.definition.requiredCapability.resource.owner = none)
  resource : ∀ requirement read,
    ⟨.resolveRequirement handler context parsedCall, Settled.fulfilled (some requirement)⟩ ∈ t →
    ⟨.heldRequirement .decided requirement, read⟩ ∈ t → read.resource = requirement.resource

section Entered

variable {t : KernelTrace} {q : KernelM ToolResult} {requirement : CapabilityRequirement}

omit [HostPlatform] in
theorem mem_of_mem_records {event : AuditEvent} {answer : Settled Unit}
    (h : (event, answer) ∈ records t) : ⟨.record event, answer⟩ ∈ t := by
  obtain ⟨⟨o, x⟩, hmem, hrecord⟩ := List.mem_filterMap.mp h
  cases o with
  | record event' =>
      cases Option.some.inj hrecord
      exact hmem
  | _ => cases hrecord

omit [HostPlatform] in
/-- Passed in the context left, the world and the ceiling are the call's own just where the owner is,
or where none is named. -/
theorem own_world_iff {definition : ToolDefinition} {left : AccessContext}
    (hworld : requirement.resource.owner.getD left.owner = left.owner)
    (hwithin : WithinDeclared definition requirement left) :
    WithinDeclared definition requirement context ∧
        requirement.resource.owner.getD context.owner = context.owner ↔
      left.owner = context.owner ∨
        (requirement.resource.owner = none ∧
          definition.requiredCapability.resource.owner = none) := by
  have howner := hwithin.owner
  have hsplit : WithinDeclared definition requirement context ↔
      definition.requiredCapability.resource.owner.getD context.owner =
        requirement.resource.owner.getD context.owner :=
    ⟨WithinDeclared.owner, fun h => { hwithin with owner := h }⟩
  rw [hsplit]
  cases hasked : requirement.resource.owner <;>
    cases hdeclared : definition.requiredCapability.resource.owner <;> grind

/-- An operation of a phase has one answer in a run. -/
theorem answer_unique (h : Program.Reaches (invokeTool kernel context call) t q) {o : KernelOp}
    {x y : o.Answer} (hx : ⟨o, x⟩ ∈ t) (hy : ⟨o, y⟩ ∈ t) (hpos : 0 < hookPhase o) : x = y :=
  eq_of_heq (Sigma.mk.inj (phases_invokeTool.eq_of_phase h hx hy rfl hpos)).2

theorem required_unique (h : Program.Reaches (invokeTool kernel context call) t q)
    {requirement' : CapabilityRequirement}
    (hrequired : RequirementOf handler context parsedCall t requirement)
    (hrequired' : RequirementOf handler context parsedCall t requirement') :
    requirement = requirement' := by
  unfold RequirementOf at hrequired hrequired'
  split at hrequired
  · next hresolves =>
      rw [if_pos hresolves] at hrequired'
      obtain ⟨resolved, hmem, rfl⟩ := hrequired
      obtain ⟨resolved', hmem', rfl⟩ := hrequired'
      rw [Settled.fulfilled.inj (answer_unique h hmem hmem' Nat.two_pos)]
  · next hresolves =>
      rw [if_neg hresolves] at hrequired'
      rw [hrequired, hrequired']

/-- One decision is on record, so one resource is. -/
theorem recorded_unique (h : Program.Reaches (invokeTool kernel context call) t q)
    {authority authority' : ResolvedAuthority} {requirement' : CapabilityRequirement}
    (hrecorded : Recorded call authority requirement t)
    (hrecorded' : Recorded call authority' requirement' t) :
    requirement.resource = requirement'.resource := by
  obtain ⟨event, hmem, htype, hallowed, hresource, -⟩ := hrecorded
  obtain ⟨event', hmem', htype', hallowed', hresource', -⟩ := hrecorded'
  have hphase : hookPhase (.record event) = 5 := if_pos ⟨htype, hallowed⟩
  have hphase' : hookPhase (.record event') = 5 := if_pos ⟨htype', hallowed'⟩
  have hsame := phases_invokeTool.eq_of_phase h (mem_of_mem_records hmem)
    (mem_of_mem_records hmem') (hphase.trans hphase'.symm) (by rw [hphase]; omega)
  cases hsame
  exact Option.some.inj (hresource.symm.trans hresource')

/-- The condition, on what the run has. -/
theorem Passed.leftAsHanded_iff (h : Program.Reaches (invokeTool kernel context call) t q)
    {left : AccessContext} {resource : ResourceRef}
    (hpassed : Passed kernel context call handler parsedCall t authority requirement left resource) :
    (handler.resolvesRequirement = true → LeftAsHanded handler context parsedCall t) ↔
      (left.owner = context.owner ∨
          (requirement.resource.owner = none ∧
            handler.definition.requiredCapability.resource.owner = none)) ∧
        resource = requirement.resource := by
  have hrequired := hpassed.required
  have hleft := hpassed.leftIn
  unfold RequirementOf at hrequired
  unfold LeftIn at hleft
  split at hrequired
  · next hresolves =>
      rw [if_pos hresolves] at hleft
      obtain ⟨resolved, hresolved, rfl⟩ := hrequired
      constructor
      · intro hkept
        refine ⟨(hkept hresolves).owner resolved left hresolved hleft, ?_⟩
        cases hpassed.read with
        | held _ hanswered hread => exact (hkept hresolves).resource _ _ hanswered hread
        | frozen => rfl
      · rintro ⟨howner, hresource⟩ -
        refine ⟨fun resolved' left' hresolved' hleft' => ?_, fun answered read hanswered hread => ?_⟩
        · obtain rfl := answer_unique h hleft hleft' (show 0 < 3 by omega)
          obtain rfl := Settled.fulfilled.inj (answer_unique h hresolved hresolved' Nat.two_pos)
          exact howner
        · obtain rfl := Settled.fulfilled.inj (answer_unique h hresolved hanswered Nat.two_pos)
          cases hpassed.read with
          | held _ _ hread' =>
              obtain rfl := answer_unique h hread hread' (show 0 < 4 by omega)
              exact hresource
          | frozen hdeclared =>
              have hnone := answer_unique h hanswered (hdeclared hresolves) Nat.two_pos
              cases hnone
  · next hresolves =>
      rw [if_neg hresolves] at hleft
      refine iff_of_true (fun hresolves' => absurd hresolves' hresolves) ⟨.inl (by rw [hleft]), ?_⟩
      cases hpassed.read with
      | held hresolves' => exact absurd hresolves' hresolves
      | frozen => rfl

/-- **When an entered handler was authorized for its call's own context.** -/
theorem handler_entered_iff {handed : AccessContext}
    (h : Program.Asks (invokeTool kernel context call) t
      (.invokeHandler handler handed parsedCall)) :
    Authorized kernel context call handler parsedCall t ↔
      (handler.resolvesRequirement = true → LeftAsHanded handler context parsedCall t) := by
  obtain ⟨hclear, ⟨authority, requirement, left, resource, hpassed⟩, hunaborted⟩ :=
    (Program.wp_sound wp_invokeTool).1 t _ h
  obtain ⟨next, hreaches⟩ := h
  rw [hpassed.leftAsHanded_iff hreaches, ← own_world_iff hpassed.world hpassed.within]
  constructor
  · intro hauthorized
    obtain ⟨authority', requirement', -, hrequired, hrecorded, hwithin, hworld⟩ :=
      hauthorized.decided
    obtain rfl := required_unique hreaches hpassed.required hrequired
    exact ⟨⟨hwithin, hworld⟩, recorded_unique hreaches hpassed.recorded hrecorded⟩
  · rintro ⟨⟨hwithin, hworld⟩, rfl⟩
    exact ⟨hclear, ⟨authority, requirement, hpassed.offered, hpassed.required, hpassed.recorded,
      hwithin, hworld⟩, hunaborted⟩

end Entered

/-- **A call is mediated by its trail, whatever its tool's code writes into what it holds**, but for
the world it was authorized in: that is the call's own where the resolver left it as it was. -/
theorem shared_call_audit_mediated (kernel : SharedOSKernel) (context : AccessContext)
    (call : ToolCall) :
    (∀ t handler handed parsedCall,
      Program.Asks (invokeTool kernel context call) t (.invokeHandler handler handed parsedCall) →
      (Authorized kernel context call handler parsedCall t ↔
        (handler.resolvesRequirement = true → LeftAsHanded handler context parsedCall t))) ∧
    (∀ t r, Program.Finishes (invokeTool kernel context call) t r → Mediated t r) ∧
    ∀ t event answer answer' t₁ t₂ r₁ r₂, event.type = AuditEventType.toolInvoked →
      Program.Finishes (invokeTool kernel context call) (t ++ ⟨.record event, answer⟩ :: t₁) r₁ →
      Program.Finishes (invokeTool kernel context call) (t ++ ⟨.record event, answer'⟩ :: t₂) r₂ →
      r₁ = r₂ := by
  refine ⟨?_, ?_, ?_⟩
  · intro t handler handed parsedCall h
    exact handler_entered_iff h
  · intro t r h
    exact ((Program.wp_sound wp_invokeTool).2 t r h).mediated
  · intro t event answer answer' t₁ t₂ r₁ r₂ htype h₁ h₂
    exact steady_invokeTool.ends_alike (show AboutCall (.record event) from htype) h₁ h₂

end Runs

namespace Sample

/-- The reader, with a requirement of its own for each call. -/
def resolvingReader : ToolHandler := { Kernel.Sample.reader with resolvesRequirement := true }

/-- The document, as another human's. -/
def foreignFile : CapabilityRequirement :=
  { Core.Sample.reading with
    resource := { Core.Sample.reading.resource with owner := some (.human "stranger") } }

/-- Outside any turn, the tool's resolver answers `resolved` and leaves `left` in the context. The
sink refuses what is written about the call. -/
def surroundings (resolved : CapabilityRequirement) (left : AccessContext) :
    (o : KernelOp) → o.Answer
  | .leasedAuthority _ => none
  | .leasedRegistry _ => some (.ok ⟨[resolvingReader], List.nodup_singleton _⟩)
  | .loadGrants _ => .fulfilled (.array [some Core.Sample.ticket])
  | .resolveRequirement .. => .fulfilled (some resolved)
  | .heldContext since was => if since = .resolved then left else was
  | o => Kernel.Sample.surroundings o

/-- The context, with its owner rewritten. -/
def rewritten : AccessContext := { Core.Sample.context with owner := .human "stranger" }

end Sample

/-- An entered handler was asked for. -/
theorem asks_of_entered {p : KernelM ToolResult} {t : KernelTrace} {r : Except KernelError ToolResult}
    {handler : ToolHandler} (h : Program.Finishes p t r) (hentered : handler ∈ entries t) :
    ∃ u handed parsedCall, u ⊆ t ∧ Program.Asks p u (.invokeHandler handler handed parsedCall) := by
  obtain ⟨handed, parsedCall, answer, hmem⟩ := mem_entries.mp hentered
  obtain ⟨u, v, rfl⟩ := List.append_of_mem hmem
  exact ⟨u, handed, parsedCall, List.subset_append_left u _, Program.Reaches.asks_prefix h⟩

open scoped SharedOS.Foundation.Reference in
/-- A resolver writes another owner into the context, and the handler is entered for that world. -/
theorem owner_rewritten_enters :
    ∃ t handed parsedCall,
      Program.Asks (invokeTool Kernel.Sample.kernel Core.Sample.context Kernel.Sample.call) t
        (.invokeHandler Sample.resolvingReader handed parsedCall) ∧
      ¬ Authorized Kernel.Sample.kernel Core.Sample.context Kernel.Sample.call
        Sample.resolvingReader parsedCall t := by
  let whole := Program.runWith (Sample.surroundings Sample.foreignFile Sample.rewritten)
    (invokeTool Kernel.Sample.kernel Core.Sample.context Kernel.Sample.call)
  have hrun : Program.Finishes
      (invokeTool Kernel.Sample.kernel Core.Sample.context Kernel.Sample.call) whole.1 whole.2 :=
    Program.finishes_runWith _ _
  have hentries : entries whole.1 = [Sample.resolvingReader] := rfl
  obtain ⟨t, handed, parsedCall, hsub, hasks⟩ := asks_of_entered hrun
    (hentries ▸ List.mem_singleton_self _)
  refine ⟨t, handed, parsedCall, hasks, fun hauthorized => ?_⟩
  obtain ⟨_, requirement, _, hrequired, _, _, hworld⟩ := hauthorized.decided
  obtain ⟨resolved, hmem, rfl⟩ := hrequired
  have hanswer := Program.mem_runWith (hsub hmem)
  cases hanswer
  revert hworld
  decide

open scoped SharedOS.Foundation.Reference in
theorem shared_call_audit_mediated_resolving :
    ∃ t u handed parsedCall,
      Program.Finishes (invokeTool Kernel.Sample.kernel Core.Sample.context Kernel.Sample.call) t
        (.ok (refusedToolResult Kernel.Sample.call .failed Core.Sample.context.now
          "tool_execution_failed" "The tool failed while executing")) ∧
      Program.Asks (invokeTool Kernel.Sample.kernel Core.Sample.context Kernel.Sample.call) u
        (.invokeHandler Sample.resolvingReader handed parsedCall) ∧
      Authorized Kernel.Sample.kernel Core.Sample.context Kernel.Sample.call
        Sample.resolvingReader parsedCall u ∧
      ∃ event answer, invokedRecords t = [(event, answer)] ∧ event.outcome = .failed := by
  let whole := Program.runWith (Sample.surroundings Core.Sample.reading Core.Sample.context)
    (invokeTool Kernel.Sample.kernel Core.Sample.context Kernel.Sample.call)
  have hrun : Program.Finishes
      (invokeTool Kernel.Sample.kernel Core.Sample.context Kernel.Sample.call) whole.1 whole.2 :=
    Program.finishes_runWith _ _
  have hend : whole.2 = .ok (refusedToolResult Kernel.Sample.call .failed Core.Sample.context.now
      "tool_execution_failed" "The tool failed while executing") := rfl
  have hentries : entries whole.1 = [Sample.resolvingReader] := rfl
  obtain ⟨u, handed, parsedCall, hsub, hasks⟩ := asks_of_entered hrun
    (hentries ▸ List.mem_singleton_self _)
  obtain ⟨hauthorized, hmediated, -⟩ :=
    shared_call_audit_mediated Kernel.Sample.kernel Core.Sample.context Kernel.Sample.call
  rw [hend] at hrun
  refine ⟨whole.1, u, handed, parsedCall, hrun, hasks, ?_, (hmediated _ _ hrun).recorded ?_⟩
  · apply (hauthorized _ _ _ _ hasks).mpr
    intro _
    constructor
    · intro resolved left _ hleft
      have hanswer : left = Core.Sample.context :=
        eq_of_heq (Sigma.mk.inj (Program.mem_runWith (hsub hleft))).2
      exact .inl (by rw [hanswer])
    · intro requirement read _ hread
      have hanswer : read = requirement :=
        eq_of_heq (Sigma.mk.inj (Program.mem_runWith (hsub hread))).2
      rw [hanswer]
  · rw [hentries]
    exact List.cons_ne_nil _ _

end SharedOS.Kernel.Live
