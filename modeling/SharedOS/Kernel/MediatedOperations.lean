/-
SharedOS.Kernel.MediatedOperations — resource operations and messages, mediated by their trail.

The two kinds of operation, and the course of each from its port back. A provider or a transport is
entered on one recorded decision about exactly the resource asked for, and what becomes of the record
about the operation changes nothing.
-/
import SharedOS.Core.MessageService
import SharedOS.Foundation.Interpreter
import SharedOS.Kernel.OperationMediation

namespace SharedOS.Kernel

open SharedOS.Foundation SharedOS.Contracts SharedOS.Core

section Spec

variable [HostPlatform]

/-! ## The decision behind a port -/

/-- The record of a decision that spends a use on the requirement. -/
structure AllowedRecord (requirement : CapabilityRequirement) (authority : ResolvedAuthority)
    (grantId : Option JsString) (event : AuditEvent) : Prop where
  type : event.type = .authorizationChecked
  outcome : event.outcome = .allowed
  resource : event.resource = some requirement.resource
  action : event.action = some requirement.action
  consumed : event.consumed = some true
  authorityHash : event.authorityHash = some authority.snapshot.hash
  grantId : event.grantId = grantId

/-- The turn's authority was resolved, the requirement decided on it and allowed, and the decision
accepted by the sink. -/
def AllowedBy (kernel : SharedOSKernel) (context : AccessContext)
    (requirement : CapabilityRequirement) (grantId : Option JsString) (t : OperationTrace) : Prop :=
  ∃ t₁ t₂ t₃ t₄ authority decision event, kernelTrace t = t₁ ++ t₂ ++ t₃ ++ t₄ ∧
    Program.Finishes (resolveTurnAuthority kernel context) t₂ (.ok (.resolved authority)) ∧
    Program.Finishes (decideAndRecord kernel context authority requirement true none) t₃
      (.ok decision) ∧
    decision.allowed = true ∧ decision.matchedGrantId = grantId ∧
    resourceBelongsToContext requirement.resource authority.context = true ∧
    (event, Settled.fulfilled ()) ∈ records t₃ ∧
    AllowedRecord requirement authority grantId event

section Decision

variable {kernel : SharedOSKernel} {context : AccessContext} {authority : ResolvedAuthority}
  {requirement : CapabilityRequirement}

theorem AllowedBy.append {grantId : Option JsString} {t : OperationTrace}
    (h : AllowedBy kernel context requirement grantId t) (u : OperationTrace) :
    AllowedBy kernel context requirement grantId (t ++ u) := by
  obtain ⟨t₁, t₂, t₃, t₄, authority, decision, event, htrace, hdecided⟩ := h
  refine ⟨t₁, t₂, t₃, t₄ ++ kernelTrace u, authority, decision, event, ?_, hdecided⟩
  rw [kernelTrace_append, htrace]
  simp only [List.append_assoc]

/-- A foreign resource is not allowed, whatever the ports answer. -/
theorem belongs_of_allowed {t : KernelTrace} {decision : AuthorizationDecision} {consume : Bool}
    {operationId : Option JsString}
    (h : Program.Finishes
      (decideAndRecord kernel context authority requirement consume operationId) t (.ok decision))
    (hallowed : decision.allowed = true) :
    resourceBelongsToContext requirement.resource authority.context = true := by
  obtain ⟨t₁, t₂, explained, event, -, hdecide, rfl, -⟩ := finishes_decideAndRecord h
  by_contra hforeign
  have hmalformed : requestIsWellFormed requirement authority.context = false := by
    unfold requestIsWellFormed
    rw [Bool.not_eq_true] at hforeign
    rw [hforeign, Bool.and_false]
  have hdenied : explained.decision.allowed = false := by
    unfold authorize decideOnGrants at hdecide
    dsimp only at hdecide
    split at hdecide
    · cases (Program.finishes_done.mp hdecide).2
      rfl
    · rw [hmalformed] at hdecide
      cases (Program.finishes_done.mp hdecide).2
      rfl
  rw [hallowed] at hdenied
  cases hdenied

/-- Authority and then an allowed decision, at the end of what was asked. -/
theorem allowedBy_of_decision {h u v : OperationTrace} {t₁ t₂ : KernelTrace}
    {decision : AuthorizationDecision} (hu : OfKernel t₁ u) (hv : OfKernel t₂ v)
    (hresolve : Program.Finishes (resolveTurnAuthority kernel context) t₁
      (.ok (.resolved authority)))
    (hdecide : Program.Finishes
      (decideAndRecord kernel context authority requirement true none) t₂ (.ok decision))
    (hallowed : decision.allowed = true) :
    AllowedBy kernel context requirement decision.matchedGrantId (h ++ u ++ v) := by
  obtain ⟨_, _, _, event, -, -, -, hrecords, hinput⟩ := finishes_decideAndRecord hdecide
  refine ⟨kernelTrace h, t₁, t₂, [], authority, decision, event, ?_, hresolve, hdecide, hallowed,
    rfl, belongs_of_allowed hdecide hallowed, ?_, ?_⟩
  · rw [kernelTrace_append, kernelTrace_append, kernelTrace_ofKernel hu, kernelTrace_ofKernel hv,
      List.append_nil]
  · rw [hrecords]
    exact List.mem_singleton_self _
  · constructor
    all_goals rw [hinput]
    · rfl
    · exact if_pos hallowed
    all_goals rfl

end Decision

/-! ## What becomes of the record about an operation -/

/-- The write of a record of the type. -/
def AboutOperation (type : AuditEventType) : OperationOp → Prop
  | .kernel (.record event) => event.type = type
  | _ => False

section Fixed

variable {α β : Type} {kernel : SharedOSKernel} {context : AccessContext} {type : AuditEventType}

omit [HostPlatform] in
/-- A part that writes nothing about the operation fixes nothing. -/
theorem fixed_unwriting_bind {p : KernelM β} {f : β → OperationM α} (hp : Unwriting type p)
    (hf : ∀ a, Program.FixedFrom (AboutOperation type) (f a)) :
    Program.FixedFrom (AboutOperation type) (within p >>= f) := by
  refine (hp.embed fun o ho => ?_ : Program.Uses _ (within p)).fixedFrom_bind hf
  cases o <;> exact ho

omit [HostPlatform] in
/-- **Writing about the operation, and then ending with `r`.** -/
theorem fixed_recordAbout_bind {input : AuditEventInput} {g : Unit → OperationM α}
    {r : Except OperationError α} (hg : g () = Program.ofExcept r) :
    Program.FixedFrom (AboutOperation type) (within (recordAbout kernel context input) >>= g) := by
  have hend : Program.EndsIn r (g ()) := by
    rw [hg]
    exact Program.endsIn_ofExcept r
  have hfixed : Program.FixedFrom (AboutOperation type) (g ()) := by
    rw [hg]
    exact Program.fixedFrom_ofExcept r
  unfold recordAbout stampEvent recordOutcome ask
  refine ⟨fun ho => ho.elim, fun id => ⟨fun _ => ⟨r, fun answer => ?_⟩, fun answer => ?_⟩⟩
  · cases answer with
    | fulfilled => exact hend
    | rejected =>
        show Program.EndsIn r (within (if kernel.reportsAuditErrors = true then _ else _) >>= g)
        split
        · intro t r' hrun
          obtain ⟨_, u, _, hrest⟩ := Program.finishes_ask.mp hrun
          exact hend u r' hrest
        · exact hend
  · cases answer with
    | fulfilled => exact hfixed
    | rejected =>
        show Program.FixedFrom _ (within (if kernel.reportsAuditErrors = true then _ else _) >>= g)
        split
        · exact ⟨fun ho => ho.elim, fun _ => hfixed⟩
        · exact hfixed

omit [HostPlatform] in
/-- A port, and the record of what came of it. -/
theorem fixed_enterPort_bind {port : PortHandling α} (o : OperationOp)
    (read : o.Answer → PortAnswer α) (stopped : JsString → AuditEventInput)
    (ended : α → AuditEventInput) (ho : ¬ AboutOperation type o)
    (hstopped : ∀ code, port.interrupted code = recordAbout kernel port.context (stopped code)) :
    Program.FixedFrom (AboutOperation type)
      (enterPort kernel (enter o >>= fun x => pure (read x)) port >>= fun result =>
        within (recordAbout kernel context (ended result)) >>= fun _ => pure result) := by
  have hconcluded : ∀ result, Program.FixedFrom (AboutOperation type)
      (within (recordAbout kernel context (ended result)) >>= fun _ =>
        (pure result : OperationM α)) := fun result => fixed_recordAbout_bind (r := .ok result) rfl
  have hinterrupted : ∀ code e, Program.FixedFrom (AboutOperation type)
      (within (port.interrupted code >>= fun _ => (raise e : KernelM α)) >>= fun result =>
        within (recordAbout kernel context (ended result)) >>= fun _ => pure result) := by
    intro code e
    unfold within
    rw [hstopped, Program.embed_bind, Program.bind_assoc]
    exact fixed_recordAbout_bind (r := .error (.kernel e)) rfl
  unfold enterPort
  rw [Program.bind_assoc]
  apply fixed_unwriting_bind (quiet_throwIfAborted.unwriting type)
  intro _
  refine ⟨fun h => absurd h ho, fun x => ?_⟩
  show Program.FixedFrom _ (within (settlePort kernel port (read x)) >>= _)
  cases read x with
  | returned candidate => exact hconcluded _
  | threwAuditUnavailable => exact hinterrupted _ _
  | threw =>
      refine ⟨fun h => h.elim, fun aborted => ?_⟩
      cases aborted with
      | true => exact hinterrupted _ _
      | false =>
          show Program.FixedFrom _ (within (reportProviderError kernel port.context port.failed.1
            port.operation >>= fun _ => pure (port.refuse port.failed.1 port.failed.2)) >>= _)
          unfold within
          rw [Program.embed_bind, Program.bind_assoc]
          apply fixed_unwriting_bind ((quiet_reportProviderError ..).unwriting type)
          intro _
          exact hconcluded _

end Fixed

/-! ## Resource operations -/

/-- A resource operation, as the trail has it. -/
def resourceKind (kernel : SharedOSKernel) (context : AccessContext)
    (request : ResourceInvocationRequest) : OperationKind ResourceResult where
  type := .resourceInvoked
  ended := resourceEnded request
  interrupted code grantId := resourceInvoked request .interrupted (some code) grantId
  ended_type _ _ := rfl
  interrupted_type _ _ := rfl
  refusal result :=
    result.operationId = request.operationId ∧ result.outcome.status ≠ .succeeded
  answered e result := ∃ provider candidate,
    e = ⟨.invokeProvider provider (toResourceOperation context request),
      PortAnswer.returned (some candidate)⟩ ∧
    acceptResourceResult request candidate = some result
  allowed := AllowedBy kernel context request.requirement
  allowed_append _ _ u h := h.append u

/-- What each operation asked has behind it. -/
def ResourceGuarded (kernel : SharedOSKernel) (ports : OperationPorts) (context : AccessContext)
    (request : ResourceInvocationRequest) (t : OperationTrace) : OperationOp → Prop
  | .invokeProvider provider operation =>
    ports.resources.get request.resource.namespace = some provider ∧
      operation = toResourceOperation context request ∧
      EnteredAfter (resourceKind kernel context request) t
  | .kernel _ => True
  | .resolveMessageCapability .. | .deliver .. => False

section Resource

variable {kernel : SharedOSKernel} {ports : OperationPorts} {context : AccessContext}
  {request : ResourceInvocationRequest} {grantId : Option JsString} {h : OperationTrace}

theorem acceptResourceResult_names {candidate result : ResourceResult}
    (h : acceptResourceResult request candidate = some result) :
    result.operationId = request.operationId := by
  simpa using (Option.filter_eq_some_iff.mp h).2

omit [HostPlatform] in
theorem within_refuseResource {status : ProtocolError → ToolOutcome} {code message : JsString} :
    within (refuseResource kernel context request status code message grantId) =
      within (recordAbout kernel context (resourceEnded request
        (refusedResourceResult request status context.now code message) grantId)) >>= fun _ =>
      pure (refusedResourceResult request status context.now code message) :=
  Program.embed_bind _ _

/-- An exit before the provider. -/
theorem wp_refuseResource {status : ProtocolError → ToolOutcome} {code message : JsString}
    (hopen : Unspoken .resourceInvoked [] h)
    (hstatus : ∀ error, (status error).status ≠ .succeeded) :
    Program.wp (ResourceGuarded kernel ports context request)
      (within (refuseResource kernel context request status code message grantId))
      (OperationMediated (resourceKind kernel context request)) h := by
  rw [within_refuseResource]
  apply wp_concluded (resourceKind kernel context request) hopen (fun _ _ => trivial)
    (Nat.zero_le 1)
  · intro hports
    exact absurd rfl hports
  · exact .inl ⟨rfl, hstatus _⟩

theorem wp_runProvider (hopen : Unspoken .resourceInvoked [] h)
    (hallowed : AllowedBy kernel context request.requirement grantId h) :
    Program.wp (ResourceGuarded kernel ports context request)
      (runProvider kernel ports context request grantId)
      (OperationMediated (resourceKind kernel context request)) h := by
  unfold runProvider
  cases hget : ports.resources.get request.resource.namespace with
  | none =>
      apply wp_refuseResource hopen
      intro error
      exact ToolStatus.noConfusion
  | some provider =>
      apply wp_enterPort_bind (resourceKind kernel context request)
        (.invokeProvider provider (toResourceOperation context request)) id hopen (fun _ _ => trivial) hallowed
      · intro x
        rfl
      · intro x
        rfl
      · intro code
        rfl
      · intro code message
        exact ⟨rfl, ToolStatus.noConfusion⟩
      · rintro x candidate result hread haccept
        obtain rfl : x = PortAnswer.returned (some candidate) := hread
        exact ⟨provider, candidate, rfl, haccept⟩
      · intro t hentered
        exact ⟨hget, rfl, hentered⟩

theorem wp_invokeResource (asked : ResourceInvocationRequest) :
    Program.wp (ResourceGuarded kernel ports context (asked.owned context))
      (invokeResource kernel ports context asked)
      (OperationMediated (resourceKind kernel context (asked.owned context))) [] := by
  have hempty : Unspoken .resourceInvoked [] [] :=
    ⟨fun w hw => absurd hw List.not_mem_nil, rfl, rfl⟩
  unfold invokeResource
  apply wp_decisive_bind (quiet_throwIfAborted.decisive _) hempty (fun _ _ => trivial)
  intro t₀ u₀ _ _ _ hopen₀
  have hauthority : Decisive .resourceInvoked (resolveTurnAuthority kernel context) :=
    decisive_resolveTurnAuthority (by decide)
  apply wp_decisive_bind hauthority hopen₀ (fun _ _ => trivial)
  intro t₁ u₁ resolution hresolve hu₁ hopen₁
  cases resolution with
  | unavailable code detail =>
      apply wp_refuseResource hopen₁
      intro error
      exact ToolStatus.noConfusion
  | resolved authority =>
      have hdecision : Decisive .resourceInvoked (decideAndRecord kernel context authority
          (asked.owned context).requirement true none) := decisive_decideAndRecord (by decide)
      apply wp_decisive_bind hdecision hopen₁ (fun _ _ => trivial)
      intro t₂ u₂ decision hdecide hu₂ hopen₂
      split
      · next hallowed =>
          exact wp_runProvider hopen₂ (allowedBy_of_decision hu₁ hu₂ hresolve hdecide hallowed)
      · apply wp_refuseResource hopen₂
        intro error
        exact ToolStatus.noConfusion

omit [HostPlatform] in
theorem fixed_refuseResource {status : ProtocolError → ToolOutcome} {code message : JsString} :
    Program.FixedFrom (AboutOperation .resourceInvoked)
      (within (refuseResource kernel context request status code message grantId)) := by
  rw [within_refuseResource]
  exact fixed_recordAbout_bind (r := .ok _) rfl

theorem fixed_invokeResource (asked : ResourceInvocationRequest) :
    Program.FixedFrom (AboutOperation .resourceInvoked)
      (invokeResource kernel ports context asked) := by
  unfold invokeResource
  apply fixed_unwriting_bind (quiet_throwIfAborted.unwriting _)
  intro _
  have hauthority : Decisive .resourceInvoked (resolveTurnAuthority kernel context) :=
    decisive_resolveTurnAuthority (by decide)
  apply fixed_unwriting_bind hauthority.unwriting
  intro resolution
  cases resolution with
  | unavailable code detail => exact fixed_refuseResource
  | resolved authority =>
      have hdecision : Decisive .resourceInvoked (decideAndRecord kernel context authority
          (asked.owned context).requirement true none) := decisive_decideAndRecord (by decide)
      apply fixed_unwriting_bind hdecision.unwriting
      intro decision
      split
      · unfold runProvider
        split
        · exact fixed_refuseResource
        · next provider hget =>
            exact fixed_enterPort_bind (.invokeProvider provider _) id
              (fun code => resourceInvoked (asked.owned context) .interrupted (some code)
                decision.matchedGrantId)
              (fun result => resourceEnded (asked.owned context) result decision.matchedGrantId)
              id fun _ => rfl
      · exact fixed_refuseResource

end Resource

/-- A message, as the trail has it. The requirement is what the host's resolver answered. -/
def messageKind (kernel : SharedOSKernel) (context : AccessContext)
    (envelope : FullMessageEnvelope) : OperationKind MessageDeliveryResult where
  type := .messageSent
  ended := messageEnded envelope none
  interrupted code grantId := messageSent envelope none .interrupted (some code) grantId
  ended_type _ _ := rfl
  interrupted_type _ _ := rfl
  refusal result := result.messageId = envelope.id ∧ result.taken = false
  answered e result := ∃ receipt,
    e = ⟨.deliver context envelope, PortAnswer.returned (some receipt)⟩ ∧
    acceptReceipt envelope receipt = some result
  allowed grantId t := ∃ requirement,
    ⟨.resolveMessageCapability context envelope, Settled.fulfilled requirement⟩ ∈ t ∧
      AllowedBy kernel context requirement grantId t
  allowed_append _ _ u h := by
    obtain ⟨requirement, hmem, hallowed⟩ := h
    exact ⟨requirement, List.mem_append_left u hmem, hallowed.append u⟩

/-- What each operation asked has behind it. -/
def MessageGuarded (kernel : SharedOSKernel) (ports : OperationPorts) (context : AccessContext)
    (envelope : FullMessageEnvelope) (t : OperationTrace) : OperationOp → Prop
  | .deliver context' envelope' =>
    ports.hasMessageTransport = true ∧ context' = context ∧ envelope' = envelope ∧
      envelopeFitsContext context envelope = true ∧
      EnteredAfter (messageKind kernel context envelope) t
  | .kernel _ => True
  | .resolveMessageCapability context' envelope' => context' = context ∧ envelope' = envelope
  | .invokeProvider .. => False

section Message

variable {kernel : SharedOSKernel} {ports : OperationPorts} {context : AccessContext}
  {envelope : FullMessageEnvelope} {grantId : Option JsString} {h : OperationTrace}

theorem acceptReceipt_names {receipt result : MessageDeliveryResult}
    (h : acceptReceipt envelope receipt = some result) : result.messageId = envelope.id := by
  simpa using (Option.filter_eq_some_iff.mp h).2

omit [HostPlatform] in
theorem within_refuseMessage {status : ProtocolError → DeliveryOutcome} {code message : JsString} :
    within (refuseMessage kernel context envelope status code message grantId none) =
      within (recordAbout kernel context (messageEnded envelope none
        (refusedMessageResult envelope status context.now code message) grantId)) >>= fun _ =>
      pure (refusedMessageResult envelope status context.now code message) :=
  Program.embed_bind _ _

/-- A status that says the message was not taken. -/
def Refusing (status : ProtocolError → DeliveryOutcome) : Prop :=
  status = .denied ∨ status = .failed

omit [HostPlatform] in
theorem refused_not_taken {status : ProtocolError → DeliveryOutcome} (h : Refusing status)
    (completedAt code message : JsString) :
    (refusedMessageResult envelope status completedAt code message).taken = false := by
  rcases h with rfl | rfl <;> rfl

/-- An exit before the transport. -/
theorem wp_refuseMessage {status : ProtocolError → DeliveryOutcome} {code message : JsString}
    (hopen : Unspoken .messageSent [] h) (hstatus : Refusing status) :
    Program.wp (MessageGuarded kernel ports context envelope)
      (within (refuseMessage kernel context envelope status code message grantId none))
      (OperationMediated (messageKind kernel context envelope)) h := by
  rw [within_refuseMessage]
  apply wp_concluded (messageKind kernel context envelope) hopen (fun _ _ => trivial)
    (Nat.zero_le 1)
  · intro hports
    exact absurd rfl hports
  · exact .inl ⟨rfl, refused_not_taken hstatus _ _ _⟩

theorem wp_deliverAuthorizedMessage (hopen : Unspoken .messageSent [] h)
    (hfits : envelopeFitsContext context envelope = true)
    (hallowed : (messageKind kernel context envelope).allowed grantId h) :
    Program.wp (MessageGuarded kernel ports context envelope)
      (deliverAuthorizedMessage kernel ports context envelope grantId none)
      (OperationMediated (messageKind kernel context envelope)) h := by
  unfold deliverAuthorizedMessage
  split
  · next htransport =>
      apply wp_enterPort_bind (messageKind kernel context envelope) (.deliver context envelope) id
        hopen (fun _ _ => trivial) hallowed
      · intro x
        rfl
      · intro x
        rfl
      · intro code
        rfl
      · intro code message
        exact ⟨rfl, refused_not_taken (.inr rfl) _ _ _⟩
      · rintro x receipt result hread haccept
        obtain rfl : x = PortAnswer.returned (some receipt) := hread
        exact ⟨receipt, rfl, haccept⟩
      · intro t hentered
        exact ⟨htransport, rfl, rfl, hfits, hentered⟩
  · exact wp_refuseMessage hopen (.inr rfl)

theorem wp_decideMessage (hopen : Unspoken .messageSent [] h)
    (hfits : envelopeFitsContext context envelope = true) :
    Program.wp (MessageGuarded kernel ports context envelope)
      (decideMessage kernel ports context envelope)
      (OperationMediated (messageKind kernel context envelope)) h := by
  unfold decideMessage
  refine ⟨⟨rfl, rfl⟩, fun answer => ?_⟩
  have hopen₀ : Unspoken .messageSent []
      (h ++ [⟨.resolveMessageCapability context envelope, answer⟩]) :=
    hopen.asked rfl rfl
  cases answer with
  | rejected =>
      apply wp_decisive_bind ((quiet_reportProviderError ..).decisive _) hopen₀
        (fun _ _ => trivial)
      intro t u _ _ _ hopen₁
      exact wp_refuseMessage hopen₁ (.inr rfl)
  | fulfilled requirement =>
      have hauthority : Decisive .messageSent (resolveTurnAuthority kernel context) :=
        decisive_resolveTurnAuthority (by decide)
      apply wp_decisive_bind hauthority hopen₀ (fun _ _ => trivial)
      intro t₁ u₁ resolution hresolve hu₁ hopen₁
      cases resolution with
      | unavailable code detail => exact wp_refuseMessage hopen₁ (.inl rfl)
      | resolved authority =>
          have hdecision : Decisive .messageSent
              (decideAndRecord kernel context authority requirement true none) :=
            decisive_decideAndRecord (by decide)
          apply wp_decisive_bind hdecision hopen₁ (fun _ _ => trivial)
          intro t₂ u₂ decision hdecide hu₂ hopen₂
          split
          · next hallowed =>
              apply wp_deliverAuthorizedMessage hopen₂ hfits
              refine ⟨requirement, ?_, allowedBy_of_decision hu₁ hu₂ hresolve hdecide hallowed⟩
              simp
          · exact wp_refuseMessage hopen₂ (.inl rfl)

theorem wp_sendMessage {candidate : Option FullMessageEnvelope}
    (hread : candidate.bind messageEnvelopeSchema = some envelope) :
    Program.wp (MessageGuarded kernel ports context envelope)
      (sendMessage kernel ports context candidate)
      (OperationMediated (messageKind kernel context envelope)) [] := by
  have hempty : Unspoken .messageSent [] [] :=
    ⟨fun w hw => absurd hw List.not_mem_nil, rfl, rfl⟩
  unfold sendMessage
  rw [hread]
  apply wp_decisive_bind (quiet_throwIfAborted.decisive _) hempty (fun _ _ => trivial)
  intro t u _ _ _ hopen
  dsimp only
  split
  · next hfits => exact wp_decideMessage hopen hfits
  · exact wp_refuseMessage hopen (.inl rfl)

omit [HostPlatform] in
theorem fixed_refuseMessage {status : ProtocolError → DeliveryOutcome} {code message : JsString} :
    Program.FixedFrom (AboutOperation .messageSent)
      (within (refuseMessage kernel context envelope status code message grantId none)) := by
  rw [within_refuseMessage]
  exact fixed_recordAbout_bind (r := .ok _) rfl

theorem fixed_decideMessage :
    Program.FixedFrom (AboutOperation .messageSent)
      (decideMessage kernel ports context envelope) := by
  unfold decideMessage
  refine ⟨fun h => h.elim, fun answer => ?_⟩
  cases answer with
  | rejected =>
      apply fixed_unwriting_bind ((quiet_reportProviderError ..).unwriting _)
      intro _
      exact fixed_refuseMessage
  | fulfilled requirement =>
      have hauthority : Decisive .messageSent (resolveTurnAuthority kernel context) :=
        decisive_resolveTurnAuthority (by decide)
      apply fixed_unwriting_bind hauthority.unwriting
      intro resolution
      cases resolution with
      | unavailable code detail => exact fixed_refuseMessage
      | resolved authority =>
          have hdecision : Decisive .messageSent
              (decideAndRecord kernel context authority requirement true none) :=
            decisive_decideAndRecord (by decide)
          apply fixed_unwriting_bind hdecision.unwriting
          intro decision
          split
          · unfold deliverAuthorizedMessage
            split
            · exact fixed_enterPort_bind (.deliver context envelope) id
                (fun code => messageSent envelope none .interrupted (some code)
                  decision.matchedGrantId)
                (fun result => messageEnded envelope none result decision.matchedGrantId)
                id fun _ => rfl
            · exact fixed_refuseMessage
          · exact fixed_refuseMessage

theorem fixed_sendMessage (candidate : Option FullMessageEnvelope) :
    Program.FixedFrom (AboutOperation .messageSent)
      (sendMessage kernel ports context candidate) := by
  unfold sendMessage
  apply fixed_unwriting_bind (quiet_throwIfAborted.unwriting _)
  intro _
  cases candidate.bind messageEnvelopeSchema with
  | none => trivial
  | some envelope =>
      dsimp only
      split
      · exact fixed_decideMessage
      · exact fixed_refuseMessage

/-- What is not an envelope is neither recorded nor sent. -/
theorem sendMessage_notTheContract {candidate : Option FullMessageEnvelope} {t : OperationTrace}
    {r : Except OperationError MessageDeliveryResult}
    (hread : candidate.bind messageEnvelopeSchema = none)
    (h : Program.Finishes (sendMessage kernel ports context candidate) t r) :
    records (kernelTrace t) = [] ∧ portsEntered t = [] ∧ ∀ result, r ≠ .ok result := by
  unfold sendMessage at h
  rw [hread] at h
  rcases Program.finishes_bind.mp h with ⟨e, rfl, hthrow⟩ | ⟨_, u₁, u₂, rfl, hfirst, hrest⟩
  · obtain ⟨t', r', hrun, hcarried, -⟩ := Program.finishes_embed hthrow
    refine ⟨?_, portsEntered_ofKernel hcarried, fun result heq => by cases heq⟩
    rw [kernelTrace_ofKernel hcarried]
    exact records_silent (quiet_throwIfAborted.trace hrun)
  · obtain ⟨t', r', hrun, hcarried, -⟩ := Program.finishes_embed hfirst
    obtain ⟨rfl, rfl⟩ := Program.finishes_throw.mp hrest
    rw [List.append_nil]
    refine ⟨?_, portsEntered_ofKernel hcarried, fun result heq => by cases heq⟩
    rw [kernelTrace_ofKernel hcarried]
    exact records_silent (quiet_throwIfAborted.trace hrun)

end Message

/-- Where the host's resolver scopes a message to its recipient, what the sink accepted names the
recipient. -/
theorem recipient_recorded {kernel : SharedOSKernel} {context : AccessContext}
    {envelope : FullMessageEnvelope} {t : OperationTrace}
    (hentered : EnteredAfter (messageKind kernel context envelope) t)
    (hscoped : ∀ answer, ⟨.resolveMessageCapability context envelope, answer⟩ ∈ t →
      answer = .fulfilled (messageSendRequirement context envelope.receiver)) :
    ∃ event, (event, Settled.fulfilled ()) ∈ records (kernelTrace t) ∧
      event.type = .authorizationChecked ∧ event.outcome = .allowed ∧
      event.action = some messageSendAction ∧
      event.resource = some (messageSendRequirement context envelope.receiver).resource := by
  obtain ⟨grantId, requirement, hresolved, hallowed⟩ := hentered.allowed
  obtain ⟨t₁, t₂, t₃, t₄, authority, decision, event, htrace, -, -, -, -, -, hmem, hrecord⟩ :=
    hallowed
  cases hscoped _ hresolved
  refine ⟨event, ?_, hrecord.type, hrecord.outcome, hrecord.action, hrecord.resource⟩
  rw [htrace, records_append, records_append, records_append]
  exact List.mem_append_left _ (List.mem_append_right _ hmem)

/-- **A message is mediated by its trail.** The transport is entered once at most, with the envelope as
the schema read it, from the context's own sender and on a recorded decision; every ending has the
record it should; what becomes of that record changes nothing; and what is no envelope is neither
recorded nor sent. -/
theorem sendMessage_mediated (kernel : SharedOSKernel) (ports : OperationPorts)
    (context : AccessContext) (candidate : Option FullMessageEnvelope) :
    (∀ t context' envelope,
      Program.Asks (sendMessage kernel ports context candidate) t (.deliver context' envelope) →
      ports.hasMessageTransport = true ∧ context' = context ∧
        candidate.bind messageEnvelopeSchema = some envelope ∧
        envelopeFitsContext context envelope = true ∧
        EnteredAfter (messageKind kernel context envelope) t ∧
        ((∀ answer, ⟨.resolveMessageCapability context envelope, answer⟩ ∈ t →
            answer = .fulfilled (messageSendRequirement context envelope.receiver)) →
          ∃ event, (event, Settled.fulfilled ()) ∈ records (kernelTrace t) ∧
            event.type = .authorizationChecked ∧ event.outcome = .allowed ∧
            event.action = some messageSendAction ∧
            event.resource = some (messageSendRequirement context envelope.receiver).resource)) ∧
    (∀ t r, Program.Finishes (sendMessage kernel ports context candidate) t r →
      (∀ envelope, candidate.bind messageEnvelopeSchema = some envelope →
        OperationMediated (messageKind kernel context envelope) t r ∧
          ∀ result, r = .ok result → result.messageId = envelope.id) ∧
      (candidate.bind messageEnvelopeSchema = none →
        records (kernelTrace t) = [] ∧ portsEntered t = [] ∧ ∀ result, r ≠ .ok result)) ∧
    ∀ t event answer answer' t₁ t₂ r₁ r₂, event.type = AuditEventType.messageSent →
      Program.Finishes (sendMessage kernel ports context candidate)
        (t ++ ⟨.kernel (.record event), answer⟩ :: t₁) r₁ →
      Program.Finishes (sendMessage kernel ports context candidate)
        (t ++ ⟨.kernel (.record event), answer'⟩ :: t₂) r₂ → r₁ = r₂ := by
  refine ⟨?_, ?_, ?_⟩
  · intro t context' envelope hasks
    cases hread : candidate.bind messageEnvelopeSchema with
    | none =>
        -- nothing but the signal is asked before the envelope is refused
        exfalso
        unfold sendMessage at hasks
        rw [hread] at hasks
        rcases Program.asks_bind.mp hasks with hasks | ⟨_, _, _, _, _, hasks⟩
        · obtain ⟨_, o, _, _, heq⟩ := Program.asks_embed hasks
          cases heq
        · exact Program.not_asks_throw hasks
    | some parsed =>
        obtain ⟨htransport, hcontext, rfl, hfits, hentered⟩ :=
          (Program.wp_sound (wp_sendMessage hread)).1 t _ hasks
        exact ⟨htransport, hcontext, rfl, hfits, hentered, recipient_recorded hentered⟩
  · intro t r hrun
    refine ⟨fun envelope hread => ?_, fun hread => sendMessage_notTheContract hread hrun⟩
    have hmediated := (Program.wp_sound (wp_sendMessage hread)).2 t r hrun
    refine ⟨hmediated, fun result hresult => ?_⟩
    rcases hmediated.own result hresult with hrefusal | ⟨e, -, receipt, -, haccept⟩
    · exact hrefusal.1
    · exact acceptReceipt_names haccept
  · intro t event answer answer' t₁ t₂ r₁ r₂ htype h₁ h₂
    exact (fixed_sendMessage candidate).ends_alike
      (show AboutOperation _ (.kernel (.record event)) from htype) h₁ h₂

end Spec

/-! ## Ports that answer for something else -/

namespace Sample

/-- The provider of the files. -/
def files : ResourceProvider where
  «namespace» := "files"
  implementation := 0

/-- That provider, and a transport. -/
def operationPorts : OperationPorts where
  resources := ⟨[files], List.nodup_singleton _⟩
  hasMessageTransport := true

open SharedOS.Core.Sample in
/-- A read through the provider. -/
def readRequest : ResourceInvocationRequest where
  operationId := "operation"
  resource := reading.resource
  action := reading.action
  input := none
  metadata := none

open SharedOS.Core.Sample in
/-- Ports that answer for another operation, and a resolver that asks for the reading. -/
def operationSurroundings : (o : OperationOp) → o.Answer
  | .kernel o => surroundings o
  | .invokeProvider .. =>
    .returned (some
      { operationId := "other"
        completedAt := context.now
        outcome := .succeeded .null
        metadata := none })
  | .resolveMessageCapability .. => .fulfilled reading
  | .deliver .. =>
    .returned (some
      { messageId := "other", timestamp := context.now, outcome := .delivered, metadata := none })

open SharedOS.Core.Sample in
/-- A message to a peer. -/
def letter : FullMessageEnvelope where
  version := PROTOCOL_VERSION
  id := "message"
  sender := context.actor
  receiver := .agent "tina"
  purpose := context.purpose
  payload := .null
  traceId := context.traceId
  createdAt := context.now
  replyTo := none
  provenance := none

end Sample

open scoped SharedOS.Foundation.Reference in
/-- A transport that answers for another message. -/
theorem sendMessage_mediated_mismatched :
    ∃ t result, ∃ envelope : FullMessageEnvelope, Sample.letter.id = envelope.id ∧ Program.Finishes
        (sendMessage Sample.kernel Sample.operationPorts Core.Sample.context (some Sample.letter)) t
        (.ok result) ∧
      result.messageId = envelope.id ∧ (portsEntered t).length = 1 ∧
      ∃ event answer, recordsOf .messageSent t = [(event, answer)] ∧ event.outcome = .failed := by
  let whole := Program.runWith Sample.operationSurroundings
    (sendMessage Sample.kernel Sample.operationPorts Core.Sample.context (some Sample.letter))
  have hrun : Program.Finishes
      (sendMessage Sample.kernel Sample.operationPorts Core.Sample.context (some Sample.letter))
      whole.1 whole.2 := Program.finishes_runWith _ _
  obtain ⟨envelope, hread⟩ := Option.isSome_iff_exists.mp
    (show (messageEnvelopeSchema Sample.letter).isSome by decide +kernel)
  obtain ⟨-, hmediated, -⟩ := sendMessage_mediated Sample.kernel Sample.operationPorts
    Core.Sample.context (some Sample.letter)
  have hid : Sample.letter.id = envelope.id := by
    have hids : (messageEnvelopeSchema Sample.letter).map FullMessageEnvelope.id =
        some Sample.letter.id := by
      decide +kernel
    rw [hread] at hids
    exact (Option.some.inj hids).symm
  obtain ⟨result, hend, hfailed⟩ : ∃ result, whole.2 = .ok result ∧
      deliveryRecorded result.outcome = .failed := ⟨_, rfl, rfl⟩
  rw [hend] at hrun
  obtain ⟨hkept, hnames⟩ := (hmediated _ _ hrun).1 envelope hread
  obtain ⟨event, answer, grantId, hrecords, hinput, -⟩ := hkept.recorded _ rfl
  refine ⟨_, result, envelope, hid, hrun, hnames _ rfl, rfl, event, answer, hrecords, ?_⟩
  rw [hinput]
  exact hfailed

end SharedOS.Kernel
