/-
SharedOS.Kernel.OperationMediation — what the audit trail says of a resource operation and of a message.

The two run one course, so the argument is made once, of any kind of operation (`OperationKind`): a
port is entered after the sink has accepted the decision that allows it and with the signal unfired; a
record before the effect that fails refuses the operation; and an operation that answered, or that
entered its port, has exactly one record of its own. The parts of the course are kernel programs, so
what they write is read off their runs there and carried over.
-/
import SharedOS.Kernel.AuditMediation
import SharedOS.Kernel.Operations

namespace SharedOS.Kernel

open SharedOS.Foundation SharedOS.Contracts SharedOS.Core

/-! ## What the parts write -/

/-- The write of a record of the type. -/
def WritesOf (type : AuditEventType) : KernelOp → Prop
  | .record event => event.type = type
  | _ => False

/-- The program writes no record of the type. -/
abbrev Unwriting {α : Type} (type : AuditEventType) (p : KernelM α) : Prop :=
  Program.Uses (fun o => ¬ WritesOf type o) p

theorem Quiet.unwriting {α : Type} {p : KernelM α} (h : Quiet p) (type : AuditEventType) :
    Unwriting type p := by
  apply h.mono
  intro o ho habout
  cases o with
  | record event => exact ho
  | _ => exact habout

/-- A part before the effect: it writes nothing about the operation, and a record of its own that
fails refuses the operation. -/
structure Decisive {α : Type} (type : AuditEventType) (p : KernelM α) : Prop where
  unwriting : Unwriting type p
  refused : ∀ t r event, Program.Finishes p t r → (event, Settled.rejected) ∈ records t →
    r = .error (.auditUnavailable .none)

section Decisive

variable {α β : Type} {type : AuditEventType} {p : KernelM α}

theorem Decisive.unwritten (hp : Decisive type p) {t : KernelTrace} {r : Except KernelError α}
    (h : Program.Finishes p t r) : ∀ w ∈ records t, w.1.type ≠ type := by
  intro w hw
  obtain ⟨⟨o, x⟩, hmem, hrecord⟩ := List.mem_filterMap.mp hw
  cases o with
  | record event =>
      cases Option.some.inj hrecord
      exact hp.unwriting.trace h _ hmem
  | _ => cases hrecord

/-- What such a part wrote, where it went on. -/
theorem Decisive.accepted (hp : Decisive type p) {t : KernelTrace} {a : α}
    (h : Program.Finishes p t (.ok a)) : ∀ w ∈ records t, w.2 = .fulfilled () := by
  rintro ⟨event, answer⟩ hw
  cases answer with
  | fulfilled => rfl
  | rejected => cases hp.refused t _ event h hw

theorem Quiet.decisive (h : Quiet p) (type : AuditEventType) : Decisive type p where
  unwriting := h.unwriting type
  refused t r event hrun hw := by
    rw [records_silent (h.trace hrun)] at hw
    exact absurd hw List.not_mem_nil

theorem Decisive.bind {f : α → KernelM β} (hp : Decisive type p)
    (hf : ∀ a, Decisive type (f a)) : Decisive type (p >>= f) where
  unwriting := hp.unwriting.bind fun a => (hf a).unwriting
  refused t r event hrun hw := by
    rcases Program.finishes_bind.mp hrun with ⟨e, rfl, hthrow⟩ | ⟨a, t₁, t₂, rfl, hfirst, hrest⟩
    · have hend := hp.refused t _ event hthrow hw
      rw [Except.error.inj hend]
    · rw [records_append] at hw
      rcases List.mem_append.mp hw with hw | hw
      · cases hp.refused t₁ _ event hfirst hw
      · exact (hf a).refused t₂ _ event hrest hw

theorem decisive_done (a : α) : Decisive type (.done a : KernelM α) :=
  Quiet.decisive (Program.uses_done a) type

theorem decisive_recordDecision {event : AuditEvent} (htype : event.type ≠ type) :
    Decisive type (recordDecision event) where
  unwriting := by
    refine ⟨htype, fun answer => ?_⟩
    cases answer <;> trivial
  refused t r event' hrun hw := by
    obtain ⟨answer, u, rfl, hrest⟩ := Program.finishes_ask.mp hrun
    cases answer with
    | fulfilled =>
        rw [(Program.finishes_done.mp hrest).1] at hw
        cases List.mem_singleton.mp hw
    | rejected => exact (Program.finishes_throw.mp hrest).2

/-- Stamping keeps the type a record is written under. -/
theorem decisive_stampAndRecord (context : AccessContext) {input : AuditEventInput}
    (htype : input.type ≠ type) : Decisive type (stampEvent context input >>= recordDecision) := by
  unfold stampEvent ask
  rw [Program.perform_bind, Program.ask_bind, ← Program.perform_bind]
  apply (Quiet.decisive (p := Program.perform KernelOp.createAuditId)
    ⟨trivial, fun _ => trivial⟩ type).bind
  intro id
  exact decisive_recordDecision htype

end Decisive

section Parts

variable [HostPlatform] {kernel : SharedOSKernel} {context : AccessContext}
  {authority : ResolvedAuthority} {type : AuditEventType}

theorem decisive_resolveTurnAuthority (htype : type ≠ .authorityResolved) :
    Decisive type (resolveTurnAuthority kernel context) := by
  unfold resolveTurnAuthority
  apply (Quiet.decisive (p := ask (.leasedAuthority (turnAuthorityKey context)))
    ⟨trivial, fun _ => trivial⟩ type).bind
  intro leased
  cases leased with
  | some resolution => exact decisive_done _
  | none =>
      show Decisive type (loadAuthority kernel context)
      unfold loadAuthority
      apply ((quiet_resolveGrants context).decisive type).bind
      intro resolved
      apply ((quiet_loadHostPolicy kernel context).decisive type).bind
      intro hostPolicy
      dsimp only
      rw [← Program.bind_assoc]
      apply Decisive.bind
      · apply decisive_stampAndRecord
        rw [authorityResolved_type]
        exact htype.symm
      · intro _
        exact decisive_done _

theorem decisive_decideAndRecord {request : CapabilityRequirement} {consume : Bool}
    {operationId : Option JsString} (htype : type ≠ .authorizationChecked) :
    Decisive type (decideAndRecord kernel context authority request consume operationId) := by
  unfold decideAndRecord
  apply ((quiet_decideOnGrants ..).decisive type).bind
  intro explained
  apply Decisive.bind
  · unfold recordAuthorizationDecision
    exact decisive_stampAndRecord context htype.symm
  · intro _
    exact decisive_done _

omit [HostPlatform] in
theorem finishes_recordAuthorizationDecision {request : CapabilityRequirement}
    {decision : AuthorizationDecision} {consume : Bool} {authorityHash operationId : Option JsString}
    {explanation : Option AuthorizationExplanation} {t : KernelTrace}
    (h : Program.Finishes (recordAuthorizationDecision context request decision consume
      authorityHash operationId explanation) t (.ok ())) :
    ∃ event, records t = [(event, Settled.fulfilled ())] ∧
      event.toAuditEventInput = authorizationChecked request decision consume authorityHash
        operationId explanation := by
  unfold recordAuthorizationDecision at h
  rcases Program.finishes_bind.mp h with ⟨e, he, -⟩ | ⟨event, t₁, t₂, rfl, hstamp, hwrite⟩
  · cases he
  obtain ⟨answer, u, rfl, hend⟩ := Program.finishes_ask.mp hwrite
  cases answer with
  | rejected => cases (Program.finishes_throw.mp hend).2
  | fulfilled =>
      obtain ⟨rfl, -⟩ := Program.finishes_done.mp hend
      refine ⟨event, ?_, finishes_stampEvent hstamp⟩
      rw [records_append, records_silent ((quiet_stampEvent _ _).trace hstamp)]
      rfl

/-- The authorizer decided, and the sink has accepted the one record of it. -/
theorem finishes_decideAndRecord {request : CapabilityRequirement} {consume : Bool}
    {operationId : Option JsString} {t : KernelTrace} {decision : AuthorizationDecision}
    (h : Program.Finishes
      (decideAndRecord kernel context authority request consume operationId) t (.ok decision)) :
    ∃ t₁ t₂ explained event, t = t₁ ++ t₂ ∧
      Program.Finishes (authorize kernel.authorizer authority request consume (some context.now)) t₁
        (.ok explained) ∧
      explained.decision = decision ∧ records t = [(event, Settled.fulfilled ())] ∧
      event.toAuditEventInput = authorizationChecked request decision consume
        (some authority.snapshot.hash) operationId explained.explanation := by
  unfold decideAndRecord at h
  rcases Program.finishes_bind.mp h with ⟨e, he, -⟩ | ⟨explained, t₁, t₂, rfl, hdecide, hrest⟩
  · cases he
  rcases Program.finishes_bind.mp hrest with ⟨e, he, -⟩ | ⟨_, t₃, t₄, rfl, hrecord, hdone⟩
  · cases he
  obtain ⟨rfl, hdecision⟩ := Program.finishes_done.mp hdone
  cases hdecision
  obtain ⟨event, hrecords, hinput⟩ := finishes_recordAuthorizationDecision hrecord
  refine ⟨t₁, t₃, explained, event, by rw [List.append_nil], hdecide, rfl, ?_, hinput⟩
  have hquiet : Quiet (authorize kernel.authorizer authority request consume (some context.now)) :=
    quiet_decideOnGrants ..
  rw [records_append, records_silent (hquiet.trace hdecide), List.append_nil, hrecords]
  rfl

end Parts

/-- **The record about an operation**: one write, and no failure of it is a failure of the
operation. -/
theorem finishes_recordAbout {kernel : SharedOSKernel} {context : AccessContext}
    {input : AuditEventInput} {t : KernelTrace} {r : Except KernelError Unit}
    (h : Program.Finishes (recordAbout kernel context input) t r) :
    r = .ok () ∧ ∃ event answer, records t = [(event, answer)] ∧
      event.toAuditEventInput = input := by
  unfold recordAbout stampEvent recordOutcome ask at h
  obtain ⟨id, u, rfl, hwrite⟩ := Program.finishes_ask.mp h
  obtain ⟨answer, v, rfl, hend⟩ := Program.finishes_ask.mp hwrite
  cases answer with
  | fulfilled =>
      obtain ⟨rfl, rfl⟩ := Program.finishes_done.mp hend
      exact ⟨rfl, _, _, rfl, rfl⟩
  | rejected =>
      split at hend
      · obtain ⟨_, w, rfl, hdone⟩ := Program.finishes_ask.mp hend
        obtain ⟨rfl, rfl⟩ := Program.finishes_done.mp hdone
        exact ⟨rfl, _, _, rfl, rfl⟩
      · obtain ⟨rfl, rfl⟩ := Program.finishes_done.mp hend
        exact ⟨rfl, _, _, rfl, rfl⟩

/-- What stopped an operation whose port was entered, by the code it is recorded under. -/
def StoppedBy (code : JsString) (e : KernelError) : Prop :=
  (code = operationAborted ∧ e = .aborted) ∨
    (code = auditUnavailableCode ∧ e = .auditUnavailable .unknown)

/-- **How a port that has settled is answered for**: with a result and without a record, or stopped
and recorded as that. -/
theorem finishes_settlePort {α : Type} {kernel : SharedOSKernel} {port : PortHandling α}
    {stopped : JsString → AuditEventInput} {answer : PortAnswer α} {t : KernelTrace}
    {r : Except KernelError α}
    (hport : ∀ code, port.interrupted code = recordAbout kernel port.context (stopped code))
    (h : Program.Finishes (settlePort kernel port answer) t r) :
    (∃ result, r = .ok result ∧ records t = [] ∧
      ((∃ code message, result = port.refuse code message) ∨
        ∃ candidate, answer = .returned (some candidate) ∧ port.accept candidate = some result)) ∨
    ∃ code e event written, r = .error e ∧ records t = [(event, written)] ∧
      event.toAuditEventInput = stopped code ∧ StoppedBy code e := by
  have hinterrupted : ∀ {code : JsString} {e : KernelError} {u : KernelTrace},
      Program.Finishes (port.interrupted code >>= fun _ => (raise e : KernelM α)) u r →
      r = .error e ∧ ∃ event written, records u = [(event, written)] ∧
        event.toAuditEventInput = stopped code := by
    intro code e u hrun
    rw [hport] at hrun
    rcases Program.finishes_bind.mp hrun with ⟨e', -, hthrow⟩ | ⟨_, u₁, u₂, rfl, hwrite, hraise⟩
    · cases (finishes_recordAbout hthrow).1
    · obtain ⟨rfl, rfl⟩ := Program.finishes_throw.mp hraise
      rw [List.append_nil]
      exact ⟨rfl, (finishes_recordAbout hwrite).2⟩
  cases answer with
  | returned candidate =>
      obtain ⟨rfl, rfl⟩ := Program.finishes_done.mp h
      refine .inl ⟨_, rfl, rfl, ?_⟩
      cases haccept : candidate.bind port.accept with
      | none => exact .inl ⟨_, _, rfl⟩
      | some result =>
          obtain ⟨answered, rfl, haccept'⟩ := Option.bind_eq_some_iff.mp haccept
          exact .inr ⟨answered, rfl, haccept'⟩
  | threwAuditUnavailable =>
      obtain ⟨hend, event, written, hrecords, hinput⟩ := hinterrupted h
      exact .inr ⟨_, _, event, written, hend, hrecords, hinput, .inr ⟨rfl, rfl⟩⟩
  | threw =>
      obtain ⟨aborted, u, rfl, hrest⟩ := Program.finishes_ask.mp h
      cases aborted with
      | true =>
          obtain ⟨hend, event, written, hrecords, hinput⟩ := hinterrupted hrest
          exact .inr ⟨_, _, event, written, hend, hrecords, hinput, .inl ⟨rfl, rfl⟩⟩
      | false =>
          have hreported : Program.Finishes (reportProviderError kernel port.context port.failed.1
              port.operation >>= fun _ =>
                (pure (port.refuse port.failed.1 port.failed.2) : KernelM α)) u r := hrest
          have hsilent : records u = [] := by
            refine records_silent (Program.Uses.trace ?_ hreported)
            exact (quiet_reportProviderError ..).bind fun _ => trivial
          have hend : r = .ok (port.refuse port.failed.1 port.failed.2) := by
            unfold reportProviderError at hreported
            split at hreported
            · obtain ⟨_, _, _, hdone⟩ := Program.finishes_ask.mp hreported
              exact (Program.finishes_done.mp hdone).2
            · exact (Program.finishes_done.mp hreported).2
          exact .inl ⟨_, hend, hsilent, .inl ⟨_, _, rfl⟩⟩

/-! ## Reading the trace of an operation -/

/-- The kernel's own event, where this is one. -/
def kernelEventOf : OperationEvent → Option KernelEvent
  | ⟨.kernel o, x⟩ => some ⟨o, x⟩
  | _ => none

/-- What the operation asked of the kernel's own ports. -/
def kernelTrace (t : OperationTrace) : KernelTrace := t.filterMap kernelEventOf

/-- The call of a host's port, where this is one. -/
def portOf : OperationEvent → Option OperationOp
  | ⟨.invokeProvider provider operation, _⟩ => some (.invokeProvider provider operation)
  | ⟨.deliver context envelope, _⟩ => some (.deliver context envelope)
  | _ => none

/-- The ports entered. -/
def portsEntered (t : OperationTrace) : List OperationOp := t.filterMap portOf

/-- The records of one type, with what the sink answered. -/
def recordsOf (type : AuditEventType) (t : OperationTrace) : List (AuditEvent × Settled Unit) :=
  (records (kernelTrace t)).filter fun w => w.1.type = type

@[simp] theorem kernelTrace_append (t u : OperationTrace) :
    kernelTrace (t ++ u) = kernelTrace t ++ kernelTrace u := List.filterMap_append

@[simp] theorem portsEntered_append (t u : OperationTrace) :
    portsEntered (t ++ u) = portsEntered t ++ portsEntered u := List.filterMap_append

@[simp] theorem recordsOf_append (type : AuditEventType) (t u : OperationTrace) :
    recordsOf type (t ++ u) = recordsOf type t ++ recordsOf type u := by
  unfold recordsOf
  rw [kernelTrace_append, records_append, List.filter_append]

/-- A trace of the kernel, among what the operation asked. -/
abbrev OfKernel (t : KernelTrace) (u : OperationTrace) : Prop :=
  Program.Carried OperationOp.kernel (fun _ x => x) t u

theorem kernelTrace_ofKernel {t : KernelTrace} {u : OperationTrace} (h : OfKernel t u) :
    kernelTrace u = t := by
  unfold kernelTrace
  rw [h.filterMap (f := some) fun o x => rfl, List.filterMap_some]

theorem portsEntered_ofKernel {t : KernelTrace} {u : OperationTrace} (h : OfKernel t u) :
    portsEntered u = [] := by
  unfold portsEntered
  rw [h.filterMap (f := fun _ => (none : Option OperationOp)) fun o x => rfl]
  exact List.filterMap_eq_nil_iff.mpr fun _ _ => rfl

theorem recordsOf_ofKernel {t : KernelTrace} {u : OperationTrace} (h : OfKernel t u)
    (type : AuditEventType) :
    recordsOf type u = (records t).filter fun w => w.1.type = type := by
  unfold recordsOf
  rw [kernelTrace_ofKernel h]

/-! ## One kind of operation -/

/-- One kind of operation, as its trail has it. -/
structure OperationKind (α : Type) where
  type : AuditEventType
  /-- The record of a result, under the grant that allowed the operation. -/
  ended : α → Option JsString → AuditEventInput
  /-- The record of an operation that was entered and stopped, by the code. -/
  interrupted : JsString → Option JsString → AuditEventInput
  ended_type : ∀ result grantId, (ended result grantId).type = type
  interrupted_type : ∀ code grantId, (interrupted code grantId).type = type
  /-- The kernel's own refusals. -/
  refusal : α → Prop
  /-- The event is the port's answer, and the result is the kernel's reading of it. -/
  answered : OperationEvent → α → Prop
  /-- The decision is made and recorded, on the grant. -/
  allowed : Option JsString → OperationTrace → Prop
  allowed_append : ∀ grantId t u, allowed grantId t → allowed grantId (t ++ u)

/-- Every record so far was accepted, none is about the operation, and these ports were entered. -/
structure Unspoken (type : AuditEventType) (ports : List OperationOp) (t : OperationTrace) :
    Prop where
  accepted : ∀ w ∈ records (kernelTrace t), w.2 = .fulfilled ()
  unwritten : recordsOf type t = []
  entered : portsEntered t = ports

/-- **What has happened when a port is entered.** -/
structure EnteredAfter {α : Type} (kind : OperationKind α) (t : OperationTrace) : Prop where
  unspoken : Unspoken kind.type [] t
  allowed : ∃ grantId, kind.allowed grantId t
  /-- The signal was read last of all, and had not fired. -/
  unaborted : t.getLast? = some ⟨.kernel .signalAborted, false⟩

/-- **A whole run of an operation**, in the trail and to its caller. -/
structure OperationMediated {α : Type} (kind : OperationKind α) (t : OperationTrace)
    (r : Except OperationError α) : Prop where
  /-- A record before the effect that failed has refused the operation. -/
  refused : ∀ event, (event, Settled.rejected) ∈ records (kernelTrace t) →
    event.type ≠ kind.type →
    portsEntered t = [] ∧ r = .error (.kernel (.auditUnavailable .none))
  /-- A result has exactly one record, which is its own. -/
  recorded : ∀ result, r = .ok result → ∃ event answer grantId,
    recordsOf kind.type t = [(event, answer)] ∧
      event.toAuditEventInput = kind.ended result grantId ∧
      (portsEntered t ≠ [] → kind.allowed grantId t)
  /-- So has an operation that was stopped at its port. -/
  stopped : ∀ e, r = .error e → portsEntered t ≠ [] → ∃ error code event answer grantId,
    e = .kernel error ∧ StoppedBy code error ∧ recordsOf kind.type t = [(event, answer)] ∧
      event.toAuditEventInput = kind.interrupted code grantId ∧ kind.allowed grantId t
  /-- One that was stopped before has none. -/
  unspoken : ∀ e, r = .error e → portsEntered t = [] → recordsOf kind.type t = []
  once : (portsEntered t).length ≤ 1
  /-- A result is a refusal of the kernel's, or what it accepted of the port's answer. -/
  own : ∀ result, r = .ok result → kind.refusal result ∨ ∃ e ∈ t, kind.answered e result

section Rules

variable {α β : Type} {kind : OperationKind α} {A : OperationTrace → OperationOp → Prop}
  {h : OperationTrace}

theorem Unspoken.grow {type : AuditEventType} {ports : List OperationOp} {t : KernelTrace}
    {u : OperationTrace} (hopen : Unspoken type ports h) (hu : OfKernel t u)
    (haccepted : ∀ w ∈ records t, w.2 = .fulfilled ())
    (htype : ∀ w ∈ records t, w.1.type ≠ type) : Unspoken type ports (h ++ u) := by
  constructor
  · intro w hw
    rw [kernelTrace_append, kernelTrace_ofKernel hu, records_append] at hw
    rcases List.mem_append.mp hw with hw | hw
    · exact hopen.accepted w hw
    · exact haccepted w hw
  · rw [recordsOf_append, hopen.unwritten, recordsOf_ofKernel hu]
    simpa using htype
  · rw [portsEntered_append, hopen.entered, portsEntered_ofKernel hu, List.append_nil]

/-- A question of another kind, of the operation's own. -/
theorem Unspoken.asked {type : AuditEventType} {ports : List OperationOp} {e : OperationEvent}
    (hopen : Unspoken type ports h) (hport : portOf e = none)
    (hkernel : kernelEventOf e = none) : Unspoken type ports (h ++ [e]) := by
  have htrace : kernelTrace (h ++ [e]) = kernelTrace h := by
    simp [kernelTrace, hkernel]
  constructor
  · rw [htrace]
    exact hopen.accepted
  · have hunwritten := hopen.unwritten
    unfold recordsOf at hunwritten ⊢
    rw [htrace]
    exact hunwritten
  · rw [portsEntered_append, hopen.entered]
    simp [portsEntered, hport]

/-- **A part before the effect**, over the kernel's ports. -/
theorem wp_decisive_bind {p : KernelM β} {f : β → OperationM α} (hp : Decisive kind.type p)
    (hopen : Unspoken kind.type [] h) (hkernel : ∀ t o, A t (.kernel o))
    (hnext : ∀ t u a, Program.Finishes p t (.ok a) → OfKernel t u →
      Unspoken kind.type [] (h ++ u) → Program.wp A (f a) (OperationMediated kind) (h ++ u)) :
    Program.wp A (within p >>= f) (OperationMediated kind) h := by
  apply Program.wp_embed_bind
  · intro t u o _ _
    exact hkernel _ o
  · intro t u e hrun hu
    have hentered : portsEntered (h ++ u) = [] := by
      rw [portsEntered_append, hopen.entered, portsEntered_ofKernel hu]
      rfl
    have hunwritten : recordsOf kind.type (h ++ u) = [] := by
      rw [recordsOf_append, hopen.unwritten, recordsOf_ofKernel hu]
      simpa using hp.unwritten hrun
    constructor
    · intro event hevent _
      rw [kernelTrace_append, kernelTrace_ofKernel hu, records_append] at hevent
      rcases List.mem_append.mp hevent with hevent | hevent
      · cases hopen.accepted _ hevent
      · have hend := hp.refused t _ event hrun hevent
        rw [Except.error.inj hend]
        exact ⟨hentered, rfl⟩
    · intro result hresult
      cases hresult
    · intro e' _ hne
      exact absurd hentered hne
    · intro e' _ _
      exact hunwritten
    · rw [hentered]
      exact Nat.zero_le _
    · intro result hresult
      cases hresult
  · intro t u a hrun hu
    exact hnext t u a hrun hu (hopen.grow hu (hp.accepted hrun) (hp.unwritten hrun))

/-- The record about the operation, once: it is the only one. -/
theorem recordsOf_written {ports : List OperationOp} {t : KernelTrace} {u : OperationTrace}
    {event : AuditEvent} {answer : Settled Unit} (hopen : Unspoken kind.type ports h)
    (hu : OfKernel t u) (hrecords : records t = [(event, answer)])
    (htype : event.type = kind.type) : recordsOf kind.type (h ++ u) = [(event, answer)] := by
  rw [recordsOf_append, hopen.unwritten, recordsOf_ofKernel hu, hrecords]
  simp [htype]

/-- Nothing but the record about the operation can have failed. -/
theorem undisturbed_of_written {ports : List OperationOp} {t : KernelTrace} {u : OperationTrace}
    {event : AuditEvent} {answer : Settled Unit} (hopen : Unspoken kind.type ports h)
    (hu : OfKernel t u) (hrecords : records t = [(event, answer)])
    (htype : event.type = kind.type) {other : AuditEvent}
    (hother : (other, Settled.rejected) ∈ records (kernelTrace (h ++ u))) :
    other.type = kind.type := by
  rw [kernelTrace_append, kernelTrace_ofKernel hu, records_append, hrecords] at hother
  rcases List.mem_append.mp hother with hold | hnew
  · cases hopen.accepted _ hold
  · rw [(Prod.mk.inj (List.mem_singleton.mp hnew)).1]
    exact htype

/-- **An exit with a result**: the one record, and the result as it was recorded. -/
theorem wp_concluded (kind : OperationKind α) {kernel : SharedOSKernel} {context : AccessContext} {result : α}
    {grantId : Option JsString} {ports : List OperationOp} (hopen : Unspoken kind.type ports h)
    (hkernel : ∀ t o, A t (.kernel o)) (honce : ports.length ≤ 1)
    (hallowed : ports ≠ [] → kind.allowed grantId h)
    (hown : kind.refusal result ∨ ∃ e ∈ h, kind.answered e result) :
    Program.wp A (within (recordAbout kernel context (kind.ended result grantId)) >>= fun _ =>
      pure result) (OperationMediated kind) h := by
  apply Program.wp_embed_bind
  · intro t u o _ _
    exact hkernel _ o
  · intro t u e hrun _
    cases (finishes_recordAbout hrun).1
  · intro t u _ hrun hu
    obtain ⟨-, event, answer, hrecords, hinput⟩ := finishes_recordAbout hrun
    have htype : event.type = kind.type := by
      rw [hinput]
      exact kind.ended_type result grantId
    have hentered : portsEntered (h ++ u) = ports := by
      rw [portsEntered_append, hopen.entered, portsEntered_ofKernel hu, List.append_nil]
    show OperationMediated kind (h ++ u) (.ok result)
    constructor
    · intro other hother hne
      exact absurd (undisturbed_of_written hopen hu hrecords htype hother) hne
    · intro result' hresult
      cases hresult
      refine ⟨event, answer, grantId, recordsOf_written hopen hu hrecords htype, hinput, ?_⟩
      intro hports
      rw [hentered] at hports
      exact kind.allowed_append _ _ _ (hallowed hports)
    · intro e he
      cases he
    · intro e he
      cases he
    · rw [hentered]
      exact honce
    · intro result' hresult
      cases hresult
      rcases hown with hrefusal | ⟨e, he, hanswered⟩
      · exact .inl hrefusal
      · exact .inr ⟨e, List.mem_append_left u he, hanswered⟩

/-- **The port, and the one record of what came of it.** -/
theorem wp_enterPort_bind (kind : OperationKind α) {kernel : SharedOSKernel}
    {context : AccessContext} {port : PortHandling α} (o : OperationOp)
    (read : o.Answer → PortAnswer α) {grantId : Option JsString}
    (hopen : Unspoken kind.type [] h) (hkernel : ∀ t o, A t (.kernel o))
    (hallowed : kind.allowed grantId h)
    (hport : ∀ x, portOf ⟨o, x⟩ = some o) (hoff : ∀ x, kernelEventOf ⟨o, x⟩ = none)
    (hstopped : ∀ code, port.interrupted code =
      recordAbout kernel port.context (kind.interrupted code grantId))
    (hrefusal : ∀ code message, kind.refusal (port.refuse code message))
    (hanswered : ∀ x candidate result, read x = .returned (some candidate) →
      port.accept candidate = some result → kind.answered ⟨o, x⟩ result)
    (hentry : ∀ t, EnteredAfter kind t → A t o) :
    Program.wp A
      (enterPort kernel (enter o >>= fun x => pure (read x)) port >>= fun result =>
        within (recordAbout kernel context (kind.ended result grantId)) >>= fun _ => pure result)
      (OperationMediated kind) h := by
  unfold enterPort
  rw [Program.bind_assoc]
  apply wp_decisive_bind (quiet_throwIfAborted.decisive _) hopen hkernel
  intro t u _ hrun hu hopen'
  have hlast : (h ++ u).getLast? = some ⟨.kernel .signalAborted, false⟩ := by
    rw [finishes_throwIfAborted hrun] at hu
    obtain ⟨x, hx, rfl⟩ := hu.getLast? (o := KernelOp.signalAborted) (x := false) rfl
    rw [List.getLast?_append, hx]
    rfl
  have hallowed' := kind.allowed_append _ _ u hallowed
  show Program.wp A (Program.ask o _) _ _
  refine ⟨hentry _ ⟨hopen', ⟨grantId, hallowed'⟩, hlast⟩, fun x => ?_⟩
  -- from here on the port was entered
  have hspent : Unspoken kind.type [o] (h ++ u ++ [⟨o, x⟩]) := by
    constructor
    · intro w hw
      rw [kernelTrace_append, show kernelTrace [⟨o, x⟩] = [] by simp [kernelTrace, hoff],
        List.append_nil] at hw
      exact hopen'.accepted w hw
    · rw [recordsOf_append, hopen'.unwritten]
      simp [recordsOf, kernelTrace, hoff, records]
    · rw [portsEntered_append, hopen'.entered]
      simp [portsEntered, hport]
  have hallowed'' := kind.allowed_append _ _ [⟨o, x⟩] hallowed'
  show Program.wp A (within (settlePort kernel port (read x)) >>= _) _ _
  apply Program.wp_embed_bind
  · intro t' u' o' _ _
    exact hkernel _ o'
  · intro t' u' e hsettle hu'
    rcases finishes_settlePort hstopped hsettle with ⟨_, hok, -⟩ | hstop
    · cases hok
    · obtain ⟨code, error, event, written, herror, hrecords, hinput, hby⟩ := hstop
      cases herror
      have htype : event.type = kind.type := by
        rw [hinput]
        exact kind.interrupted_type code grantId
      have hentered : portsEntered (h ++ u ++ [⟨o, x⟩] ++ u') = [o] := by
        rw [portsEntered_append, hspent.entered, portsEntered_ofKernel hu']
        rfl
      constructor
      · intro other hother hne
        exact absurd (undisturbed_of_written hspent hu' hrecords htype hother) hne
      · intro result hresult
        cases hresult
      · intro e' he' _
        cases he'
        exact ⟨_, code, event, written, grantId, rfl, hby,
          recordsOf_written hspent hu' hrecords htype, hinput,
          kind.allowed_append _ _ _ hallowed''⟩
      · intro e' _ hnone
        rw [hentered] at hnone
        cases hnone
      · rw [hentered]
        exact Nat.le_refl 1
      · intro result hresult
        cases hresult
  · intro t' u' result hsettle hu'
    rcases finishes_settlePort hstopped hsettle with ⟨result', hok, hrecords, hgiven⟩ | hstop
    · cases hok
      have hspent' : Unspoken kind.type [o] (h ++ u ++ [⟨o, x⟩] ++ u') := by
        apply hspent.grow hu'
        · intro w hw
          rw [hrecords] at hw
          cases hw
        · intro w hw
          rw [hrecords] at hw
          cases hw
      apply wp_concluded kind hspent' hkernel (Nat.le_refl 1)
      · intro _
        exact kind.allowed_append _ _ _ hallowed''
      · rcases hgiven with ⟨code, message, rfl⟩ | ⟨candidate, hread, haccept⟩
        · exact .inl (hrefusal code message)
        · refine .inr ⟨⟨o, x⟩, ?_, hanswered x candidate result hread haccept⟩
          simp
    · obtain ⟨_, _, _, _, herror, -⟩ := hstop
      cases herror

end Rules

end SharedOS.Kernel
