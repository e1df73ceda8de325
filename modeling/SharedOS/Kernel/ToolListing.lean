/-
SharedOS.Kernel.ToolListing — the catalogue a turn is shown, and the record of it.

A listing goes through the registry and asks of each tool of an enabled namespace whether its ceiling
meets a grant. What passes is the catalogue. Its hash is held on the lease and written to the sink, and
both come before the answer, so a catalogue that could not be recorded is not served.

`listing_recorded` reads a whole run: the one record of it, and for each tool of the registry why it is
in the catalogue or why it is withheld.
-/
import SharedOS.Kernel.OperationMediation
import SharedOS.Kernel.PublishedTool

namespace SharedOS.Kernel

open SharedOS.Foundation SharedOS.Contracts SharedOS.Core

/-! ## What a listing asks -/

/-- What a listing asks: what the kernel asks, and the one write to the lease. -/
inductive ListingOp where
  | kernel (o : KernelOp)
  /-- Write the hash to the lease under the key, where there is one. -/
  | holdCatalogHash (key hash : JsString)

/-- The answers. The write to the lease has none. -/
abbrev ListingOp.Answer : ListingOp → Type
  | .kernel o => o.Answer
  | .holdCatalogHash .. => Unit

/-- How a listing rejects. -/
inductive ListingError where
  | kernel (error : KernelError)
  | catalog (error : CatalogError)
  /-- A definition has no published form, or a name is published twice. -/
  | unpublishable
  deriving DecidableEq

/-- The programs of a listing. -/
abbrev ListingM := Program ListingOp ListingOp.Answer ListingError

/-- What a listing has asked, with the answers. -/
abbrev ListingTrace := List (Event ListingOp.Answer)

/-- A part of the kernel in a listing. -/
def listing {α : Type} (p : KernelM α) : ListingM α :=
  Program.embed ListingOp.kernel (fun _ x => x) ListingError.kernel p

/-! ## The tools -/

/-- What a listing has come to so far. -/
structure Discovery where
  allowed : List ToolDefinition
  withheldCount : ℕ
  withheldByOutage : Bool

namespace Discovery

/-- Before the first tool. -/
def empty : Discovery := ⟨[], 0, false⟩

/-- A tool whose namespace is not enabled. -/
def disable (found : Discovery) : Discovery :=
  { found with withheldCount := found.withheldCount + 1 }

/-- A tool the authorizer decided on. One it withheld for want of a fact marks the listing. -/
def decide (found : Discovery) (definition : ToolDefinition) (decision : AuthorizationDecision) :
    Discovery :=
  if decision.allowed then { found with allowed := found.allowed ++ [definition] }
  else
    { found with
      withheldCount := found.withheldCount + 1
      withheldByOutage :=
        found.withheldByOutage || decision.reasonCode ∈ infrastructureDenialReasons }

end Discovery

/-- Why a tool of the registry is listed, or is withheld. -/
inductive Verdict where
  /-- Its namespace is not enabled. -/
  | disabled
  | decided (decision : AuthorizationDecision)

namespace Verdict

/-- Whether the tool is listed. -/
def lists : Verdict → Bool
  | .disabled => false
  | .decided decision => decision.allowed

/-- Withheld because a fact could not be established. -/
def isOutage : Verdict → Bool
  | .disabled => false
  | .decided decision => !decision.allowed && decision.reasonCode ∈ infrastructureDenialReasons

end Verdict

namespace Discovery

/-- What the verdicts on some tools come to. -/
def ofVerdicts (verdicts : List (ToolDefinition × Verdict)) : Discovery where
  allowed := (verdicts.filter fun v => v.2.lists).map Prod.fst
  withheldCount := verdicts.countP fun v => !v.2.lists
  withheldByOutage := verdicts.any fun v => v.2.isOutage

/-- One listing after another. -/
def join (found more : Discovery) : Discovery where
  allowed := found.allowed ++ more.allowed
  withheldCount := found.withheldCount + more.withheldCount
  withheldByOutage := found.withheldByOutage || more.withheldByOutage

@[simp] theorem join_ofVerdicts_nil (found : Discovery) : found.join (ofVerdicts []) = found := by
  simp [join, ofVerdicts]

@[simp] theorem empty_join (found : Discovery) : empty.join found = found := by
  simp [join, empty]

/-- One verdict more, before the others. -/
theorem disable_join (found : Discovery) (definition : ToolDefinition)
    (verdicts : List (ToolDefinition × Verdict)) :
    found.disable.join (ofVerdicts verdicts) =
      found.join (ofVerdicts ((definition, .disabled) :: verdicts)) := by
  simp [join, disable, ofVerdicts, Verdict.lists, Verdict.isOutage]
  omega

theorem decide_join (found : Discovery) (definition : ToolDefinition)
    (decision : AuthorizationDecision) (verdicts : List (ToolDefinition × Verdict)) :
    (found.decide definition decision).join (ofVerdicts verdicts) =
      found.join (ofVerdicts ((definition, .decided decision) :: verdicts)) := by
  cases hallowed : decision.allowed with
  | true => simp [join, decide, ofVerdicts, Verdict.lists, Verdict.isOutage, hallowed]
  | false =>
      simp [join, decide, ofVerdicts, Verdict.lists, Verdict.isOutage, hallowed, Bool.or_assoc]
      omega

end Discovery

/-! ## The record -/

/-- `tool.catalog.listed`, where no authority could be established. -/
def catalogDenied (context : AccessContext) (code : AuthorityUnavailableCode) (hash : JsString) :
    AuditEventInput where
  type := .toolCatalogListed
  outcome := .denied
  reason := some "authority_unavailable"
  source := some .kernel
  failClosed := some true
  metadata := some (.obj
    [("catalogHash", .str hash),
      ("enabledNamespaces", jsonStrings context.enabledToolNamespaces),
      ("withheldCount", jsonInt 0),
      ("authority", .str code.text)])

/-- The version of the host policy, where one was loaded. -/
def hostPolicyVersion : Option PolicyResolution → Option JsString
  | some (.loaded _ version) => some version
  | _ => none

/-- `tool.catalog.listed`, of the catalogue that was served. -/
def catalogListed (context : AccessContext) (authority : ResolvedAuthority) (found : Discovery)
    (hash : JsString) : AuditEventInput where
  type := .toolCatalogListed
  outcome := .succeeded
  authorityHash := some authority.snapshot.hash
  source := some .kernel
  failClosed := if found.withheldByOutage then some true else none
  metadata := some (.obj
    (([("catalogHash", .str hash),
        ("enabledNamespaces", jsonStrings context.enabledToolNamespaces)] :
        List (JsString × Json)) ++
      optionalEntry "hostPolicyVersion"
        ((hostPolicyVersion authority.hostPolicy).map .str) ++
      ([("withheldCount", jsonInt found.withheldCount)] : List (JsString × Json))))

/-! ## Reading a trace -/

/-- A question of a listing, where it is one of the kernel's. -/
def listingKernelEvent : Event ListingOp.Answer → Option KernelEvent
  | ⟨.kernel o, x⟩ => some ⟨o, x⟩
  | ⟨.holdCatalogHash .., _⟩ => none

/-- What a listing asked of the kernel's own ports. -/
def askedOfKernel (t : ListingTrace) : KernelTrace := t.filterMap listingKernelEvent

@[simp] theorem askedOfKernel_append (t u : ListingTrace) :
    askedOfKernel (t ++ u) = askedOfKernel t ++ askedOfKernel u := List.filterMap_append

/-- The parts of a listing before its record: every write of theirs was accepted, none is the record
of a listing, and nothing is held. -/
structure Unlisted (t : ListingTrace) : Prop where
  accepted : ∀ w ∈ records (askedOfKernel t), w.2 = .fulfilled ()
  unwritten : ∀ w ∈ records (askedOfKernel t), w.1.type ≠ .toolCatalogListed
  unheld : ∀ e ∈ t, ∃ o, e.1 = .kernel o

/-- What a listing may ask: no function of a handler is among it. -/
def Looks : ListingOp → Prop
  | .kernel (.record _) | .kernel .createAuditId => True
  | .kernel o => Plain o
  | .holdCatalogHash .. => True

/-- A trace of the kernel, among what the listing asked. -/
abbrev InListing (t : KernelTrace) (u : ListingTrace) : Prop :=
  Program.Carried ListingOp.kernel (fun _ x => x) t u

theorem askedOfKernel_inListing {t : KernelTrace} {u : ListingTrace} (h : InListing t u) :
    askedOfKernel u = t := by
  unfold askedOfKernel
  rw [h.filterMap (f := some) fun o x => rfl, List.filterMap_some]

theorem Unlisted.append {t u : ListingTrace} (ht : Unlisted t) (hu : Unlisted u) :
    Unlisted (t ++ u) := by
  constructor
  · intro w hw
    rw [askedOfKernel_append, records_append] at hw
    exact (List.mem_append.mp hw).elim (ht.accepted w) (hu.accepted w)
  · intro w hw
    rw [askedOfKernel_append, records_append] at hw
    exact (List.mem_append.mp hw).elim (ht.unwritten w) (hu.unwritten w)
  · intro e he
    exact (List.mem_append.mp he).elim (ht.unheld e) (hu.unheld e)

theorem unlisted_of_decisive {α : Type} {p : KernelM α} (hp : Decisive .toolCatalogListed p)
    {t : KernelTrace} {u : ListingTrace} {a : α} (hrun : Program.Finishes p t (.ok a)) (hu : InListing t u) :
    Unlisted u := by
  constructor
  · rw [askedOfKernel_inListing hu]
    exact hp.accepted hrun
  · rw [askedOfKernel_inListing hu]
    exact hp.unwritten hrun
  · intro e he
    exact hu.wrapped he

/-- The program asks nothing else. -/
abbrev Looking {α : Type} (p : KernelM α) : Prop := Program.Uses (fun o => Looks (.kernel o)) p

theorem looking_of_plain {α : Type} {p : KernelM α} (h : Program.Uses Plain p) : Looking p := by
  apply h.mono
  intro o ho
  cases o <;> trivial

theorem looking_record (context : AccessContext) (input : AuditEventInput) :
    Looking (stampEvent context input >>= recordDecision) := by
  refine ⟨trivial, fun id => ⟨trivial, fun answer => ?_⟩⟩
  cases answer <;> trivial

theorem Looking.listing {α : Type} {p : KernelM α} (h : Looking p) :
    Program.Uses Looks (listing p) := h.embed fun _ ho => ho

/-! ## A listing -/

section Listing

variable [HostPlatform]

/-- The tools of a registry, one by one. -/
def discoverTools (kernel : SharedOSKernel) (context : AccessContext)
    (authority : ResolvedAuthority) : Discovery → List ToolDefinition → KernelM Discovery
  | found, [] => pure found
  | found, definition :: rest => do
    throwIfAborted
    if definition.namespace ∉ context.enabledToolNamespaces then
      discoverTools kernel context authority found.disable rest
    else do
      let explained ← canDiscover kernel.authorizer authority definition.requiredCapability
        (some context.now)
      discoverTools kernel context authority (found.decide definition explained.decision) rest

/-- Hold the hash, then write the record that names it. -/
def recordCatalog (context : AccessContext) (hash : JsString) (input : AuditEventInput) :
    ListingM Unit := do
  Program.perform (ListingOp.holdCatalogHash (turnAuthorityKey context) hash)
  listing (stampEvent context input >>= recordDecision)

/-- `listTools`. -/
def listTools (kernel : SharedOSKernel) (context : AccessContext) :
    ListingM (List ToolDefinition) := do
  listing throwIfAborted
  match ← listing (resolveTurnAuthority kernel context) with
  | .unavailable code _ =>
    recordCatalog context (catalogHash []) (catalogDenied context code (catalogHash []))
    pure []
  | .resolved authority => do
    match ← listing (resolveToolRegistry kernel context) with
    | .error e => Program.throw (.catalog e)
    | .ok tools => do
      let found ← listing (discoverTools kernel context authority .empty tools.definitions)
      match publishToolCatalog found.allowed with
      | none => Program.throw .unpublishable
      | some published =>
        recordCatalog context (catalogHash published)
          (catalogListed context authority found (catalogHash published))
        pure found.allowed

/-- What a harness is served of a turn's tools. -/
structure SharedOSToolCatalog where
  executionId : JsString
  catalogHash : JsString
  tools : List PublishedToolDefinition

/-- `buildToolCatalog`. It throws where the definitions cannot be published. -/
def buildToolCatalog (definitions : List ToolDefinition) (executionId : JsString) :
    Option SharedOSToolCatalog :=
  (publishToolCatalog definitions).map fun tools => ⟨executionId, catalogHash tools, tools⟩

/-- `listPublishedTools`. -/
def listPublishedTools (kernel : SharedOSKernel) (context : AccessContext)
    (executionId : JsString) : ListingM SharedOSToolCatalog := do
  let definitions ← listTools kernel context
  match buildToolCatalog definitions executionId with
  | none => Program.throw .unpublishable
  | some catalog => pure catalog

/-! ## Why a tool is listed -/

/-- Somewhere in the trace the program was run through, to this answer. -/
def Ran {α : Type} (p : KernelM α) (t : KernelTrace) (a : α) : Prop :=
  ∃ before u after, t = before ++ u ++ after ∧ Program.Finishes p u (.ok a)

/-- The verdict on a tool is the one the authorizer gave in the trace. -/
inductive Judged (kernel : SharedOSKernel) (context : AccessContext)
    (authority : ResolvedAuthority) (t : KernelTrace) (definition : ToolDefinition) :
    Verdict → Prop
  | disabled (h : definition.namespace ∉ context.enabledToolNamespaces) :
      Judged kernel context authority t definition .disabled
  | decided {explained : Explained} (h : definition.namespace ∈ context.enabledToolNamespaces)
      (hrun : Ran (canDiscover kernel.authorizer authority definition.requiredCapability
        (some context.now)) t explained) :
      Judged kernel context authority t definition (.decided explained.decision)

section Reading

variable {kernel : SharedOSKernel} {context : AccessContext} {authority : ResolvedAuthority}
  {α : Type} {p : KernelM α} {t : KernelTrace} {a : α}

omit [HostPlatform] in
theorem Ran.of_finishes (h : Program.Finishes p t (.ok a)) : Ran p t a :=
  ⟨[], t, [], by simp, h⟩

omit [HostPlatform] in
theorem Ran.append (h : Ran p t a) (u : KernelTrace) : Ran p (t ++ u) a := by
  obtain ⟨before, v, after, rfl, hrun⟩ := h
  exact ⟨before, v, after ++ u, by simp, hrun⟩

omit [HostPlatform] in
theorem Ran.prepend (h : Ran p t a) (u : KernelTrace) : Ran p (u ++ t) a := by
  obtain ⟨before, v, after, rfl, hrun⟩ := h
  exact ⟨u ++ before, v, after, by simp, hrun⟩

theorem Judged.prepend {definition : ToolDefinition} {verdict : Verdict}
    (h : Judged kernel context authority t definition verdict) (u : KernelTrace) :
    Judged kernel context authority (u ++ t) definition verdict := by
  cases h with
  | disabled hdisabled => exact .disabled hdisabled
  | decided henabled hrun => exact .decided henabled (hrun.prepend u)

/-- **The loop**: what is found is what the verdicts on the tools come to, one verdict a tool. -/
theorem finishes_discoverTools {tools : List ToolDefinition} {found found' : Discovery}
    (h : Program.Finishes (discoverTools kernel context authority found tools) t (.ok found')) :
    ∃ verdicts : List (ToolDefinition × Verdict), verdicts.map Prod.fst = tools ∧
      (∀ v ∈ verdicts, Judged kernel context authority t v.1 v.2) ∧
      found' = found.join (.ofVerdicts verdicts) := by
  induction tools generalizing found t with
  | nil =>
      obtain ⟨rfl, hend⟩ := Program.finishes_done.mp h
      exact ⟨[], rfl, by simp, by rw [Discovery.join_ofVerdicts_nil, Except.ok.inj hend]⟩
  | cons definition rest ih =>
      unfold discoverTools at h
      rcases Program.finishes_bind.mp h with ⟨e, he, -⟩ | ⟨_, t₁, t₂, rfl, -, hrest⟩
      · cases he
      -- whichever way the tool is decided, the rest is run from what it comes to
      have hstep : ∀ {v : Verdict} {found₁ : Discovery} {u₁ u₂ : KernelTrace}, t₂ = u₁ ++ u₂ →
          Judged kernel context authority u₁ definition v →
          (∀ verdicts, found₁.join (.ofVerdicts verdicts) =
            found.join (.ofVerdicts ((definition, v) :: verdicts))) →
          Program.Finishes (discoverTools kernel context authority found₁ rest) u₂ (.ok found') →
          ∃ verdicts : List (ToolDefinition × Verdict),
            verdicts.map Prod.fst = definition :: rest ∧
            (∀ v ∈ verdicts, Judged kernel context authority (t₁ ++ t₂) v.1 v.2) ∧
            found' = found.join (.ofVerdicts verdicts) := by
        rintro v found₁ u₁ u₂ rfl hv hjoin hrun
        obtain ⟨verdicts, hall, hjudged, hfound⟩ := ih hrun
        refine ⟨(definition, v) :: verdicts, by rw [List.map_cons, hall], ?_, ?_⟩
        · intro w hw
          rcases List.mem_cons.mp hw with rfl | hw
          · apply Judged.prepend
            cases hv with
            | disabled hdisabled => exact .disabled hdisabled
            | decided henabled hran => exact .decided henabled (hran.append u₂)
          · rw [← List.append_assoc]
            exact (hjudged w hw).prepend _
        · rw [hfound, hjoin]
      split at hrest
      · next hdisabled =>
          exact hstep (List.nil_append t₂).symm (.disabled hdisabled)
            (found.disable_join definition) hrest
      · next henabled =>
          rcases Program.finishes_bind.mp hrest with ⟨e, he, -⟩ | ⟨explained, u₁, u₂, hsplit, hdecide, hgo⟩
          · cases he
          exact hstep hsplit (.decided (not_not.mp henabled) (.of_finishes hdecide))
            (found.decide_join definition explained.decision) hgo

end Reading

/-! ## The record of a listing -/

/-- What a listing answered, of what the kernel's ports were asked: nothing where no authority could be
established, and else what the verdicts on the registry's tools come to. -/
inductive CatalogTold (kernel : SharedOSKernel) (context : AccessContext) (t : KernelTrace) :
    List ToolDefinition → JsString → AuditEventInput → Prop
  | unavailable {code : AuthorityUnavailableCode} {detail : Option AuthorityUnavailableDetail}
      (hrun : Ran (resolveTurnAuthority kernel context) t (.unavailable code detail)) :
      CatalogTold kernel context t [] (catalogHash [])
        (catalogDenied context code (catalogHash []))
  | listed {authority : ResolvedAuthority} {tools : ToolRegistry}
      {verdicts : List (ToolDefinition × Verdict)} {published : List PublishedToolDefinition}
      (hauthority : Ran (resolveTurnAuthority kernel context) t (.resolved authority))
      (hregistry : Ran (resolveToolRegistry kernel context) t (.ok tools))
      (hall : verdicts.map Prod.fst = tools.definitions)
      (hjudged : ∀ v ∈ verdicts, Judged kernel context authority t v.1 v.2)
      (hpublished : publishToolCatalog (Discovery.ofVerdicts verdicts).allowed = some published) :
      CatalogTold kernel context t (Discovery.ofVerdicts verdicts).allowed (catalogHash published)
        (catalogListed context authority (.ofVerdicts verdicts) (catalogHash published))

/-- **A whole run of a listing**, in the trail, on the lease and to its caller. -/
structure ListingRecorded (kernel : SharedOSKernel) (context : AccessContext) (t : ListingTrace)
    (r : Except ListingError (List ToolDefinition)) : Prop where
  /-- An answer comes last: the hash is held, and the sink has accepted the one record of it. -/
  answered : ∀ tools, r = .ok tools → ∃ before hash id event,
    t = before ++ [⟨.holdCatalogHash (turnAuthorityKey context) hash, ()⟩,
      ⟨.kernel .createAuditId, id⟩, ⟨.kernel (.record event), .fulfilled ()⟩] ∧
    Unlisted before ∧
    CatalogTold kernel context (askedOfKernel before) tools hash event.toAuditEventInput
  /-- Without one no record of a listing was accepted. -/
  unanswered : ∀ e, r = .error e → ∀ w ∈ records (askedOfKernel t),
    w.1.type = .toolCatalogListed → w.2 = .rejected
  /-- A record that failed has refused the listing. -/
  refused : ∀ event, (event, Settled.rejected) ∈ records (askedOfKernel t) →
    r = .error (.kernel (.auditUnavailable .none))

section Runs

variable {kernel : SharedOSKernel} {context : AccessContext} {h : ListingTrace}

/-- Before the record, any end without an answer. -/
theorem recorded_of_error {e : ListingError} (hopen : Unlisted h) :
    ListingRecorded kernel context h (.error e) := by
  constructor
  · intro tools hend
    cases hend
  · intro _ _ w hw htype
    exact absurd htype (hopen.unwritten w hw)
  · intro event hw
    cases hopen.accepted _ hw

/-- A part that throws before the record. -/
theorem recorded_of_throw {α : Type} {p : KernelM α} (hp : Decisive .toolCatalogListed p)
    (hopen : Unlisted h) {t : KernelTrace} {u : ListingTrace} {e : KernelError}
    (hrun : Program.Finishes p t (.error e)) (hu : InListing t u) :
    ListingRecorded kernel context (h ++ u) (.error (.kernel e)) := by
  constructor
  · intro tools hend
    cases hend
  · intro _ _ w hw htype
    rw [askedOfKernel_append, askedOfKernel_inListing hu, records_append] at hw
    rcases List.mem_append.mp hw with hw | hw
    · exact absurd htype (hopen.unwritten w hw)
    · exact absurd htype (hp.unwritten hrun w hw)
  · intro event hw
    rw [askedOfKernel_append, askedOfKernel_inListing hu, records_append] at hw
    rcases List.mem_append.mp hw with hw | hw
    · cases hopen.accepted _ hw
    · rw [Except.error.inj (hp.refused t _ event hrun hw)]

theorem CatalogTold.type {t : KernelTrace} {tools : List ToolDefinition} {hash : JsString}
    {input : AuditEventInput} (hinput : CatalogTold kernel context t tools hash input) :
    input.type = .toolCatalogListed := by
  cases hinput <;> rfl

/-- **The record, and the answer after it.** -/
theorem recorded_of_recordCatalog {tools : List ToolDefinition} {hash : JsString}
    {input : AuditEventInput} {u : ListingTrace} {r : Except ListingError (List ToolDefinition)}
    (hopen : Unlisted h) (htold : CatalogTold kernel context (askedOfKernel h) tools hash input)
    (hrun : Program.Finishes (recordCatalog context hash input >>= fun _ => pure tools) u r) :
    ListingRecorded kernel context (h ++ u) r := by
  obtain ⟨_, v, rfl, hstamp⟩ := Program.finishes_ask.mp hrun
  obtain ⟨id, w, rfl, hwrite⟩ := Program.finishes_ask.mp hstamp
  obtain ⟨answer, v', rfl, hend⟩ := Program.finishes_ask.mp hwrite
  -- of the three questions only the last one writes
  have hrecords : ∀ event, ∀ x : Settled Unit, records (askedOfKernel
      ([⟨.holdCatalogHash (turnAuthorityKey context) hash, ()⟩, ⟨.kernel .createAuditId, id⟩,
        ⟨.kernel (.record event), x⟩] : ListingTrace)) = [(event, x)] := fun _ _ => rfl
  cases answer with
  | fulfilled =>
      obtain ⟨rfl, rfl⟩ := Program.finishes_done.mp hend
      constructor
      · intro tools' hanswer
        cases hanswer
        exact ⟨h, hash, id, _, rfl, hopen, htold⟩
      · intro e he
        cases he
      · intro event hw
        rw [askedOfKernel_append, records_append, hrecords] at hw
        rcases List.mem_append.mp hw with hw | hw
        · cases hopen.accepted _ hw
        · cases List.mem_singleton.mp hw
  | rejected =>
      obtain ⟨rfl, rfl⟩ := Program.finishes_throw.mp hend
      constructor
      · intro tools' hanswer
        cases hanswer
      · intro e _ w hw htype
        rw [askedOfKernel_append, records_append, hrecords] at hw
        rcases List.mem_append.mp hw with hw | hw
        · exact absurd htype (hopen.unwritten w hw)
        · rw [List.mem_singleton.mp hw]
      · intro event _
        rfl

theorem quiet_discoverTools {authority : ResolvedAuthority} (found : Discovery)
    (tools : List ToolDefinition) : Quiet (discoverTools kernel context authority found tools) := by
  induction tools generalizing found with
  | nil => exact Program.uses_done _
  | cons definition rest ih =>
      unfold discoverTools
      apply quiet_throwIfAborted.bind
      intro _
      split
      · exact ih _
      · apply (quiet_decideOnGrants ..).bind
        intro explained
        exact ih _

/-- A part before the record, and what is run after it. -/
theorem recorded_of_bind {α : Type} {p : KernelM α} {f : α → ListingM (List ToolDefinition)}
    {u : ListingTrace} {r : Except ListingError (List ToolDefinition)}
    (hp : Decisive .toolCatalogListed p) (hopen : Unlisted h)
    (hrun : Program.Finishes (listing p >>= f) u r)
    (hnext : ∀ t u₁ u₂ a, Program.Finishes p t (.ok a) → InListing t u₁ → Unlisted (h ++ u₁) →
      Program.Finishes (f a) u₂ r → ListingRecorded kernel context (h ++ u₁ ++ u₂) r) :
    ListingRecorded kernel context (h ++ u) r := by
  rcases Program.finishes_bind.mp hrun with ⟨e, rfl, hthrow⟩ | ⟨a, u₁, u₂, rfl, hfirst, hrest⟩
  · obtain ⟨t, r', hinner, hu, hr'⟩ := Program.finishes_embed hthrow
    cases r' with
    | ok a => cases hr'
    | error e' =>
        cases hr'
        exact recorded_of_throw hp hopen hinner hu
  · obtain ⟨t, r', hinner, hu, hr'⟩ := Program.finishes_embed hfirst
    cases r' with
    | error e' => cases hr'
    | ok a' =>
        cases hr'
        rw [← List.append_assoc]
        exact hnext t u₁ u₂ a hinner hu (hopen.append (unlisted_of_decisive hp hinner hu)) hrest

theorem recorded_listTools {t : ListingTrace} {r : Except ListingError (List ToolDefinition)}
    (hrun : Program.Finishes (listTools kernel context) t r) :
    ListingRecorded kernel context t r := by
  have hstart : Unlisted [] := ⟨by simp [askedOfKernel, records], by simp [askedOfKernel, records],
    by simp⟩
  unfold listTools at hrun
  rw [← List.nil_append t]
  apply recorded_of_bind (quiet_throwIfAborted.decisive _) hstart hrun
  intro _ u₀ t₁ _ _ _ hopen hrun
  apply recorded_of_bind (decisive_resolveTurnAuthority (by decide)) hopen hrun
  intro k₁ u₁ t₂ resolution hauthority hu₁ hopen hrun
  have hfrom : ∀ {α : Type} {p : KernelM α} {k : KernelTrace} {u : ListingTrace} {a : α}
      (v : ListingTrace), Program.Finishes p k (.ok a) → InListing k u →
      Ran p (askedOfKernel (v ++ u)) a := by
    intro α p k u a v hfinishes hu
    rw [askedOfKernel_append, askedOfKernel_inListing hu]
    exact (Ran.of_finishes hfinishes).prepend _
  cases resolution with
  | unavailable code detail =>
      exact recorded_of_recordCatalog hopen (.unavailable (hfrom _ hauthority hu₁)) hrun
  | resolved authority =>
      apply recorded_of_bind ((quiet_resolveToolRegistry kernel context).decisive _) hopen hrun
      intro k₂ u₂ t₃ outcome hregistry hu₂ hopen hrun
      cases outcome with
      | error e =>
          obtain ⟨rfl, rfl⟩ := Program.finishes_throw.mp hrun
          rw [List.append_nil]
          exact recorded_of_error hopen
      | ok tools =>
          apply recorded_of_bind ((quiet_discoverTools _ _).decisive _) hopen hrun
          intro k₃ u₃ t₄ found hdiscover hu₃ hopen hrun
          obtain ⟨verdicts, hall, hjudged, hfound⟩ := finishes_discoverTools hdiscover
          rw [Discovery.empty_join] at hfound
          subst hfound
          cases hpublished : publishToolCatalog (Discovery.ofVerdicts verdicts).allowed with
          | none =>
              rw [hpublished] at hrun
              obtain ⟨rfl, rfl⟩ := Program.finishes_throw.mp hrun
              rw [List.append_nil]
              exact recorded_of_error hopen
          | some published =>
              rw [hpublished] at hrun
              apply recorded_of_recordCatalog hopen _ hrun
              refine .listed ?_ ?_ hall ?_ hpublished
              · rw [askedOfKernel_append, askedOfKernel_append]
                exact ((hfrom _ hauthority hu₁).append _).append _
              · rw [askedOfKernel_append]
                exact (hfrom _ hregistry hu₂).append _
              · intro v hv
                rw [askedOfKernel_append, askedOfKernel_inListing hu₃]
                exact (hjudged v hv).prepend _

end Runs

/-! ## What a harness is served -/

/-- **A whole run of `listPublishedTools`**: a catalogue is served with the hash that is held and
recorded, of exactly the tools whose verdicts list them. -/
structure CatalogServed (kernel : SharedOSKernel) (context : AccessContext) (executionId : JsString)
    (t : ListingTrace) (r : Except ListingError SharedOSToolCatalog) : Prop where
  /-- The catalogue comes last: its hash is held, and the sink has accepted the one record of it. -/
  answered : ∀ catalog, r = .ok catalog → ∃ before id event tools,
    t = before ++ [⟨.holdCatalogHash (turnAuthorityKey context) catalog.catalogHash, ()⟩,
      ⟨.kernel .createAuditId, id⟩, ⟨.kernel (.record event), .fulfilled ()⟩] ∧
    Unlisted before ∧
    CatalogTold kernel context (askedOfKernel before) tools catalog.catalogHash
      event.toAuditEventInput ∧
    publishToolCatalog tools = some catalog.tools ∧ catalog.executionId = executionId
  /-- Without one no record of a listing was accepted. -/
  unanswered : ∀ e, r = .error e → ∀ w ∈ records (askedOfKernel t),
    w.1.type = .toolCatalogListed → w.2 = .rejected
  /-- A record that failed has refused the listing. -/
  refused : ∀ event, (event, Settled.rejected) ∈ records (askedOfKernel t) →
    r = .error (.kernel (.auditUnavailable .none))
  looks : ∀ e ∈ t, Looks e.1

section Served

variable {kernel : SharedOSKernel} {context : AccessContext} {executionId : JsString}

theorem looking_resolveTurnAuthority : Looking (resolveTurnAuthority kernel context) := by
  refine ⟨trivial, fun leased => ?_⟩
  cases leased with
  | some resolution => trivial
  | none =>
      show Looking (loadAuthority kernel context)
      unfold loadAuthority
      apply (looking_of_plain (plain_resolveGrants context)).bind
      intro resolved
      apply (looking_of_plain (plain_loadHostPolicy kernel context)).bind
      intro hostPolicy
      dsimp only
      rw [← Program.bind_assoc]
      apply (looking_record context _).bind
      intro _
      trivial

theorem plain_discoverTools {authority : ResolvedAuthority} (found : Discovery)
    (tools : List ToolDefinition) :
    Program.Uses Plain (discoverTools kernel context authority found tools) := by
  induction tools generalizing found with
  | nil => exact Program.uses_done _
  | cons definition rest ih =>
      unfold discoverTools
      apply plain_throwIfAborted.bind
      intro _
      split
      · exact ih _
      · apply (plain_decideOnGrants ..).bind
        intro explained
        exact ih _

theorem looks_listTools : Program.Uses Looks (listTools kernel context) := by
  unfold listTools
  apply (looking_of_plain plain_throwIfAborted).listing.bind
  intro _
  apply looking_resolveTurnAuthority.listing.bind
  intro resolution
  cases resolution with
  | unavailable code detail =>
      exact ⟨trivial, fun _ => (looking_record context _).listing.bind fun _ => trivial⟩
  | resolved authority =>
      apply (looking_of_plain (plain_resolveToolRegistry kernel context)).listing.bind
      intro outcome
      cases outcome with
      | error e => trivial
      | ok tools =>
          apply (looking_of_plain (plain_discoverTools _ _)).listing.bind
          intro found
          split
          · trivial
          · exact ⟨trivial, fun _ => (looking_record context _).listing.bind fun _ => trivial⟩

/-- What was listed is published under the hash of the record. -/
theorem CatalogTold.published {t : KernelTrace} {tools : List ToolDefinition} {hash : JsString}
    {input : AuditEventInput} (h : CatalogTold kernel context t tools hash input) :
    ∃ published, publishToolCatalog tools = some published ∧ catalogHash published = hash := by
  cases h with
  | unavailable => exact ⟨[], rfl, rfl⟩
  | listed _ _ _ _ hpublished => exact ⟨_, hpublished, rfl⟩

/-- **The catalogue a harness is served is the one the trail names.** -/
theorem listing_recorded (kernel : SharedOSKernel) (context : AccessContext)
    (executionId : JsString) {t : ListingTrace} {r : Except ListingError SharedOSToolCatalog}
    (hrun : Program.Finishes (listPublishedTools kernel context executionId) t r) :
    CatalogServed kernel context executionId t r := by
  have hend : ∃ listed, Program.Finishes (listTools kernel context) t listed ∧
      (∀ e, r = .error e → listed = .error e ∨ ∃ tools, listed = .ok tools ∧
        buildToolCatalog tools executionId = none) ∧
      ∀ catalog, r = .ok catalog → ∃ tools, listed = .ok tools ∧
        buildToolCatalog tools executionId = some catalog := by
    rcases Program.finishes_bind.mp hrun with ⟨e, rfl, hthrow⟩ | ⟨tools, t₁, t₂, rfl, hlist, hrest⟩
    · refine ⟨.error e, hthrow, fun e' he => .inl ?_, fun catalog hcatalog => ?_⟩
      · rw [Except.error.inj he]
      · cases hcatalog
    · cases hbuild : buildToolCatalog tools executionId with
      | none =>
          rw [hbuild] at hrest
          obtain ⟨rfl, rfl⟩ := Program.finishes_throw.mp hrest
          rw [List.append_nil]
          refine ⟨.ok tools, hlist, fun _ _ => .inr ⟨tools, rfl, hbuild⟩, fun catalog hcatalog => ?_⟩
          cases hcatalog
      | some catalog =>
          rw [hbuild] at hrest
          obtain ⟨rfl, rfl⟩ := Program.finishes_done.mp hrest
          rw [List.append_nil]
          refine ⟨.ok tools, hlist, fun e he => ?_, fun catalog' hcatalog => ⟨tools, rfl, ?_⟩⟩
          · cases he
          · rw [hbuild, Except.ok.inj hcatalog]
  obtain ⟨listed, hlist, herror, hok⟩ := hend
  have hrecorded := recorded_listTools hlist
  -- what was listed was published for its hash, so a second projection of it cannot fail
  have hbuilds : ∀ tools, listed = .ok tools → buildToolCatalog tools executionId ≠ none := by
    intro tools hanswer hnone
    obtain ⟨before, hash, id, event, -, -, htold⟩ := hrecorded.answered tools hanswer
    obtain ⟨published, hpublished, -⟩ := htold.published
    simp [buildToolCatalog, hpublished] at hnone
  have hrejects : ∀ e, r = .error e → listed = .error e := by
    intro e he
    rcases herror e he with hsame | ⟨tools, hanswer, hnone⟩
    · exact hsame
    · exact absurd hnone (hbuilds tools hanswer)
  constructor
  · intro catalog hcatalog
    obtain ⟨tools, hanswer, hbuild⟩ := hok catalog hcatalog
    obtain ⟨before, hash, id, event, htrace, hopen, htold⟩ := hrecorded.answered tools hanswer
    obtain ⟨published, hpublished, hhash⟩ := htold.published
    unfold buildToolCatalog at hbuild
    rw [hpublished] at hbuild
    cases hbuild
    subst hhash
    exact ⟨before, id, event, tools, htrace, hopen, htold, hpublished, rfl⟩
  · intro e he
    exact hrecorded.unanswered e (hrejects e he)
  · intro event hw
    have hlisted := hrecorded.refused event hw
    cases hend : r with
    | ok catalog =>
        obtain ⟨tools, hanswer, -⟩ := hok catalog hend
        rw [hlisted] at hanswer
        cases hanswer
    | error e =>
        rw [hrejects e hend] at hlisted
        exact congrArg _ (Except.error.inj hlisted)
  · exact looks_listTools.trace hlist

end Served

end Listing

/-! ## A registry of two tools -/

namespace Sample

/-- A tool of a namespace that is not enabled. -/
def courier : ToolHandler where
  definition :=
    { reader.definition with
      name := "mail.send"
      «namespace» := "mail"
      source := "mail" }
  resolvesRequirement := false
  implementation := 1

/-- Surroundings whose lease holds both tools, and whose sink takes every record. -/
def bothTools : (o : KernelOp) → o.Answer
  | .leasedRegistry _ => some (.ok ⟨[reader, courier], by decide⟩)
  | .record _ => .fulfilled ()
  | o => surroundings o

/-- The surroundings of a listing of both tools. -/
def bothToolsListed : (o : ListingOp) → o.Answer
  | .kernel o => bothTools o
  | .holdCatalogHash .. => ()

end Sample

open scoped SharedOS.Foundation.Reference in
theorem listing_recorded_courier : ∃ t catalog, Program.Finishes
      (listPublishedTools Sample.kernel Core.Sample.context "execution") t (.ok catalog) ∧
    catalog.tools.map PublishedToolDefinition.name = [("files.read" : JsString)] ∧
    ∃ event, (event, Settled.fulfilled ()) ∈ records (askedOfKernel t) ∧
      event.outcome = .succeeded := by
  let whole := Program.runWith Sample.bothToolsListed
    (listPublishedTools Sample.kernel Core.Sample.context "execution")
  have hrun : Program.Finishes (listPublishedTools Sample.kernel Core.Sample.context "execution")
      whole.1 whole.2 := Program.finishes_runWith _ _
  have hnames : whole.2.map (fun catalog => catalog.tools.map PublishedToolDefinition.name) =
      .ok [("files.read" : JsString)] := rfl
  cases hend : whole.2 with
  | error e =>
      rw [hend] at hnames
      cases hnames
  | ok catalog =>
      rw [hend] at hrun hnames
      obtain ⟨before, id, event, tools, hsplit, -, htold, -, -⟩ :=
        (listing_recorded Sample.kernel Core.Sample.context "execution" hrun).answered catalog rfl
      have hrecords : records (askedOfKernel whole.1) =
          records (askedOfKernel before) ++ [(event, .fulfilled ())] := by
        rw [hsplit, askedOfKernel_append, records_append]
        rfl
      have hlast : ((records (askedOfKernel whole.1)).getLast?.map fun w => w.1.outcome) =
          some .succeeded := rfl
      refine ⟨whole.1, catalog, hrun, Except.ok.inj hnames, event, ?_, ?_⟩
      · rw [hrecords]
        exact List.mem_append_right _ (List.mem_singleton_self _)
      · rw [hrecords, List.getLast?_concat] at hlast
        exact Option.some.inj hlast

end SharedOS.Kernel
