/-
SharedOS.Kernel.AgentCard — one card read, and when it throws.

A card read decides on the reader's own grants and then describes the subject by the grants of a
second load. What it has established before it composes is `readCardMaterial`, and a read is that
and the composition (`readAgentCard_eq`). So a run throws over the card exactly when the grants the
second load found in force cannot be summarized and the coarse view was asked for
(`readAgentCard_composes_iff`).
-/
import SharedOS.Core.GrantsInForce
import SharedOS.Kernel.InvokeTool

namespace SharedOS.Kernel

open SharedOS.Foundation SharedOS.Contracts SharedOS.Core

/-! ## The operation -/

/-- A card read that was refused, and what the reader may still ask for. -/
structure AgentCardRefusal where
  reasonCode : JsString
  servableViews : List AgentCardView
  requiredAuthority : Option CapabilityRequest

/-- What a card read answers. -/
inductive AgentCardRead where
  | served (card : AgentCard)
  | refused (refusal : AgentCardRefusal)

/-- The two `TypeError`s of a card read. -/
inductive AgentCardFault where
  | subject
  | card
  deriving DecidableEq

/-- What the `TypeError` says. -/
def AgentCardFault.message : AgentCardFault → JsString
  | .subject => "agent card subject does not match the SharedOS v1 contract"
  | .card => "agent card does not match the SharedOS v1 contract"

/-- A refusal without advice. -/
def refuseCard (reasonCode : AuthorizationReasonCode) : AgentCardRead :=
  .refused { reasonCode := reasonCode.text, servableViews := [], requiredAuthority := none }

section Operation

variable [HostPlatform]

/-- `#denyUnavailableAuthority`. -/
def denyUnavailableAuthority (context : AccessContext) (request : CapabilityRequirement)
    (code : AuthorityUnavailableCode) (consume : Bool) : KernelM AuthorizationDecision := do
  let decision := deny .authorityUnavailable
    (some (.obj [("authority", .obj [("code", .str code.text)])]))
  recordAuthorizationDecision context request decision consume none none none
  pure decision

/-- The loop of `#servableCardViews`. -/
def servableCardViewsOf (kernel : SharedOSKernel) (context : AccessContext)
    (authority : ResolvedAuthority) (subject : Address) (refused : AgentCardView) :
    List AgentCardView → KernelM (List AgentCardView)
  | [] => pure []
  | view :: rest => do
    throwIfAborted
    if view = refused then servableCardViewsOf kernel context authority subject refused rest
    else do
      let explained ← authorize kernel.authorizer authority
        (agentCardRequest subject context.owner view) false (some context.now)
      let others ← servableCardViewsOf kernel context authority subject refused rest
      pure (if explained.decision.allowed then view :: others else others)

/-- `#servableCardViews`. -/
def servableCardViews (kernel : SharedOSKernel) (context : AccessContext)
    (authority : ResolvedAuthority) (subject : Address) (refused : AgentCardView) :
    KernelM (List AgentCardView) :=
  servableCardViewsOf kernel context authority subject refused agentCardViews

/-- The card, or the throw of `composeAgentCard`. -/
def serveCard (view : AgentCardView) (subject : Address) (context : AccessContext)
    (reach : List ResourceReach) : Except AgentCardFault AgentCardRead :=
  match composeAgentCard view subject context reach with
  | none => .error .card
  | some card => .ok (.served card)

/-- `readAgentCard`. -/
def readAgentCard (kernel : SharedOSKernel) (context : AccessContext) (subject : Address)
    (view : AgentCardView) : KernelM (Except AgentCardFault AgentCardRead) := do
  throwIfAborted
  match subject.schema with
  | none => pure (.error .subject)
  | some subject =>
    let request := agentCardRequest subject context.owner view
    match ← resolveTurnAuthority kernel context with
    | .unavailable code _ => do
      let decision ← denyUnavailableAuthority context request code false
      pure (.ok (refuseCard decision.reasonCode))
    | .resolved reader => do
      let decision ← decideAndRecord kernel context reader request false none
      if !decision.allowed then do
        let servableViews ← servableCardViews kernel context reader subject view
        pure (.ok (.refused
          { reasonCode := decision.reasonCode.text
            servableViews
            requiredAuthority := decision.requiredAuthority }))
      -- no reach on this view, so no second load
      else if view = .identity then pure (serveCard view subject context [])
      else
        match ← resolveTurnAuthority kernel (subjectCardContext context subject) with
        | .unavailable _ _ => pure (.ok (refuseCard .authorityUnavailable))
        | .resolved subjectAuthority => do
          match ← reach kernel.authorizer subjectAuthority (some context.now) with
          | .unavailable reasonCode => pure (.ok (refuseCard reasonCode))
          | .computed entries => pure (serveCard view subject context entries)

/-! ## What a read establishes before it composes -/

/-- An answer that needs no card, or what the card is made of. -/
inductive CardMaterial where
  | answered (outcome : Except AgentCardFault AgentCardRead)
  | identity (subject : Address)
  | inForce (subject : Address) (world : AccessContext) (grants : List CapabilityGrant)

/-- The read up to the composition, over the grants in force instead of their reach. -/
def readCardMaterial (kernel : SharedOSKernel) (context : AccessContext) (subject : Address)
    (view : AgentCardView) : KernelM CardMaterial := do
  throwIfAborted
  match subject.schema with
  | none => pure (.answered (.error .subject))
  | some subject =>
    let request := agentCardRequest subject context.owner view
    match ← resolveTurnAuthority kernel context with
    | .unavailable code _ => do
      let decision ← denyUnavailableAuthority context request code false
      pure (.answered (.ok (refuseCard decision.reasonCode)))
    | .resolved reader => do
      let decision ← decideAndRecord kernel context reader request false none
      if !decision.allowed then do
        let servableViews ← servableCardViews kernel context reader subject view
        pure (.answered (.ok (.refused
          { reasonCode := decision.reasonCode.text
            servableViews
            requiredAuthority := decision.requiredAuthority })))
      else if view = .identity then pure (.identity subject)
      else
        match ← resolveTurnAuthority kernel (subjectCardContext context subject) with
        | .unavailable _ _ => pure (.answered (.ok (refuseCard .authorityUnavailable)))
        | .resolved subjectAuthority => do
          match ← authorityInForce kernel.authorizer subjectAuthority (some context.now) with
          | none => pure (.answered (.ok (refuseCard .usageStoreUnavailable)))
          | some grants => pure (.inForce subject subjectAuthority.context grants)

/-- What a read answers on what it established. -/
def answerCard (context : AccessContext) (view : AgentCardView) :
    CardMaterial → Except AgentCardFault AgentCardRead
  | .answered outcome => outcome
  | .identity subject => serveCard view subject context []
  | .inForce subject world grants => serveCard view subject context (reachOver world grants)

/-- **A read is what it establishes, and the composition.** -/
theorem readAgentCard_eq (kernel : SharedOSKernel) (context : AccessContext) (subject : Address)
    (view : AgentCardView) :
    readAgentCard kernel context subject view =
      readCardMaterial kernel context subject view >>= fun material =>
        pure (answerCard context view material) := by
  unfold readAgentCard readCardMaterial
  rw [Program.bind_assoc]
  refine congrArg _ (funext fun _ => ?_)
  cases subject.schema with
  | none => rfl
  | some parsed =>
      dsimp only
      rw [Program.bind_assoc]
      refine congrArg _ (funext fun resolution => ?_)
      cases resolution with
      | unavailable code detail =>
          dsimp only
          rw [Program.bind_assoc]
          rfl
      | resolved reader =>
          dsimp only
          rw [Program.bind_assoc]
          refine congrArg _ (funext fun decision => ?_)
          split
          · rw [Program.bind_assoc]
            rfl
          · split
            · rfl
            · rw [Program.bind_assoc]
              refine congrArg _ (funext fun resolution => ?_)
              cases resolution with
              | unavailable code detail => rfl
              | resolved subjectAuthority =>
                  dsimp only
                  rw [reach_eq, Program.bind_assoc, Program.bind_assoc]
                  refine congrArg _ (funext fun kept => ?_)
                  cases kept <;> rfl

/-! ## Authority the trusted resolver established -/

/-- `TrustedAuthorityResolver` resolved the authority, and a loaded policy may ride on it. -/
def Trusted (authority : ResolvedAuthority) : Prop :=
  ∃ context loaded policy,
    withHostPolicy (resolveAuthority context loaded) policy = .resolved authority

theorem Trusted.wellLoaded {authority : ResolvedAuthority} (h : Trusted authority) :
    WellLoaded authority := by
  obtain ⟨context, loaded, policy, h⟩ := h
  cases hresolved : resolveAuthority context loaded with
  | unavailable code detail =>
      rw [hresolved] at h
      cases policy <;> cases h
  | resolved base =>
      have hbase := wellLoaded_of_resolved hresolved
      rw [hresolved] at h
      -- a policy changes neither the context nor the grants
      cases policy <;> cases h
      · exact hbase
      · exact ⟨hbase.few, hbase.kept⟩

/-- What a lease answers was resolved by the trusted resolver. -/
def LeaseTrusted (e : KernelEvent) : Prop :=
  ∀ key authority, e = ⟨.leasedAuthority key, some (.resolved authority)⟩ → Trusted authority

/-- **Whatever authority a turn decides on is trusted**, held or loaded. -/
theorem resolveTurnAuthority_trusted (kernel : SharedOSKernel) (context : AccessContext) :
    Program.Yields LeaseTrusted
      (fun resolution => ∀ authority, resolution = .resolved authority → Trusted authority)
      (resolveTurnAuthority kernel context) := by
  intro held hheld
  cases held with
  | some resolution =>
      intro authority heq
      exact hheld _ authority (by rw [heq])
  | none =>
      -- the load ends with the resolver's answer and the policy
      have hgrants : Program.Yields LeaseTrusted
          (fun resolved => ∃ loaded, resolved = resolveAuthority context loaded)
          (resolveGrants context) := by
        unfold resolveGrants
        refine Program.yields_bind fun loaded => ?_
        cases loaded with
        | rejected =>
            refine Program.yields_bind fun _ => ?_
            exact ⟨_, rfl⟩
        | fulfilled grants => exact ⟨_, rfl⟩
      show Program.Yields LeaseTrusted _ (loadAuthority kernel context)
      refine Program.Yields.bind hgrants fun resolved hresolved => ?_
      obtain ⟨loaded, rfl⟩ := hresolved
      refine Program.yields_bind fun policy => ?_
      refine Program.yields_bind fun event => ?_
      refine Program.yields_bind fun _ => ?_
      intro authority heq
      exact ⟨context, loaded, policy, heq⟩

/-- What the grants a card is made of are known to be. -/
def CardMaterial.Sound : CardMaterial → Prop
  | .answered outcome => outcome ≠ .error .card ∧ ∀ card, outcome ≠ .ok (.served card)
  | .identity subject => subject.schema = some subject
  | .inForce subject _ grants =>
    subject.schema = some subject ∧
      ∃ authority, WellLoaded authority ∧ grants.Sublist authority.grants

theorem readCardMaterial_sound (kernel : SharedOSKernel) (context : AccessContext)
    (subject : Address) (view : AgentCardView) :
    Program.Yields LeaseTrusted CardMaterial.Sound
      (readCardMaterial kernel context subject view) := by
  unfold readCardMaterial
  refine Program.yields_bind fun _ => ?_
  cases hparsed : subject.schema with
  | none => exact ⟨nofun, nofun⟩
  | some parsed =>
      have hsubject := Address.schema_idem hparsed
      refine Program.yields_bind fun resolution => ?_
      cases resolution with
      | unavailable code detail =>
          refine Program.yields_bind fun decision => ?_
          exact ⟨nofun, nofun⟩
      | resolved reader =>
          refine Program.yields_bind fun decision => ?_
          split
          · refine Program.yields_bind fun views => ?_
            exact ⟨nofun, nofun⟩
          · split
            · exact hsubject
            · refine Program.Yields.bind (resolveTurnAuthority_trusted kernel _)
                fun resolution hresolution => ?_
              cases resolution with
              | unavailable code detail => exact ⟨nofun, nofun⟩
              | resolved authority =>
                  have hloaded := (hresolution authority rfl).wellLoaded
                  have hsublist := authorityInForce_sublist kernel.authorizer authority
                    (some context.now)
                  refine Program.Yields.bind (hsublist.yields LeaseTrusted) fun kept hkept => ?_
                  cases kept with
                  | none => exact ⟨nofun, nofun⟩
                  | some grants => exact ⟨hsubject, authority, hloaded, hkept grants rfl⟩

/-! ## When a read throws over its card -/

/-- A card is composed but for the coarse view of a reach that cannot be summarized. -/
theorem serveCard_eq_card_iff {view : AgentCardView} {subject : Address} {context : AccessContext}
    {entries : List ResourceReach} (hsubject : subject.schema = some subject)
    (hcontext : accessContextSchema context = some context) (hentries : WithinList entries) :
    serveCard view subject context entries = .error .card ↔
      view = .namespaces ∧ ¬ Summarizable entries := by
  unfold serveCard
  rw [composeAgentCard_eq hsubject hcontext hentries]
  by_cases h : view = .namespaces → Summarizable entries
  · rw [if_pos h]
    exact iff_of_false nofun fun hnot => hnot.2 (h hnot.1)
  · rw [if_neg h]
    refine iff_of_true rfl ?_
    rwa [Classical.not_imp] at h

/-- What the claimed views do with one reach. -/
structure CardsOver (authority : ResolvedAuthority) (entries : List ResourceReach)
    (grants : List CapabilityGrant) : Prop where
  /-- Every view composes exactly when the coarse one can. -/
  composes : ∀ subject context, subject.schema = some subject →
    accessContextSchema context = some context →
      ((∀ view, (composeAgentCard view subject context entries).isSome) ↔
        Summarizable (projected authority.context grants))
  /-- A composed coarse view summarizes the reach. -/
  summarizes : ∀ subject context identity rows, subject.schema = some subject →
    accessContextSchema context = some context →
      composeAgentCard .namespaces subject context entries = some (.namespaces identity rows) →
        Summarizes entries rows

theorem cardsOver_reach {authority : ResolvedAuthority} (htrusted : Trusted authority)
    {grants : List CapabilityGrant} (hgrants : grants.Sublist authority.grants) :
    CardsOver authority (reachOver authority.context grants) grants := by
  have hentries : WithinList (reachOver authority.context grants) :=
    withinList_reachOver htrusted.wellLoaded hgrants
  refine ⟨fun subject context hsubject hcontext => ?_, ?_⟩
  · rw [← summarizable_reachOver]
    constructor
    · intro h
      have hcoarse := h .namespaces
      rw [composeAgentCard_eq hsubject hcontext hentries] at hcoarse
      by_contra hnot
      rw [if_neg fun himp => hnot (himp rfl)] at hcoarse
      cases hcoarse
    · intro h view
      rw [composeAgentCard_eq hsubject hcontext hentries, if_pos fun _ => h]
      rfl
  · intro subject context identity rows hsubject hcontext hcard
    rw [composeAgentCard_eq hsubject hcontext hentries] at hcard
    split at hcard
    · cases hcard
      exact summarizeReach_summarizes _
    · cases hcard

/-- **A computed reach composes into every view exactly when the coarse view can list the
capabilities in force**, and a card read throws over its card in no other case. -/
theorem readAgentCard_composes_iff :
    (∀ (kernel : SharedOSKernel) (authority : ResolvedAuthority) (now : Option JsString)
        (t : KernelTrace) (entries : List ResourceReach), Trusted authority →
      Program.Finishes (reach kernel.authorizer authority now) t (.ok (.computed entries)) →
      ∃ grants, Program.Finishes (authorityInForce kernel.authorizer authority now) t
          (.ok (some grants)) ∧
        CardsOver authority entries grants) ∧
    ∀ (kernel : SharedOSKernel) (context : AccessContext) (subject : Address)
        (view : AgentCardView) (t : KernelTrace) (r : Except AgentCardFault AgentCardRead),
      accessContextSchema context = some context → (∀ e ∈ t, LeaseTrusted e) →
      Program.Finishes (readAgentCard kernel context subject view) t (.ok r) →
      (r = .error .card ↔
        view = .namespaces ∧ ∃ parsed world grants,
          Program.Finishes (readCardMaterial kernel context subject view) t
            (.ok (.inForce parsed world grants)) ∧
          ¬ Summarizable (projected world grants)) := by
  constructor
  · intro kernel authority now t entries htrusted hrun
    rw [reach_eq] at hrun
    obtain ⟨kept, hkept, heq⟩ := Program.finishes_map.mp hrun
    cases kept with
    | none => cases heq
    | some grants =>
        cases heq
        have hsublist := (authorityInForce_sublist kernel.authorizer authority now).of_finishes hkept
        exact ⟨grants, hkept, cardsOver_reach htrusted (hsublist grants rfl)⟩
  · intro kernel context subject view t r hcontext hleases hrun
    rw [readAgentCard_eq] at hrun
    obtain ⟨material, hmaterial, rfl⟩ := Program.finishes_map.mp hrun
    have hsound := (readCardMaterial_sound kernel context subject view).of_finishes hmaterial hleases
    -- the trace determines what the read established
    have hunique : ∀ other, Program.Finishes (readCardMaterial kernel context subject view) t
        (.ok other) → other = material := by
      intro other hother
      exact Except.ok.inj (Program.finishes_unique hother hmaterial)
    cases material with
    | answered outcome =>
        refine iff_of_false hsound.1 ?_
        rintro ⟨-, parsed, world, grants, hother, -⟩
        cases hunique _ hother
    | identity parsed =>
        refine iff_of_false (fun hcard => ?_) ?_
        · have hempty : WithinList [] := ⟨Nat.zero_le _, fun _ h => absurd h List.not_mem_nil⟩
          obtain ⟨-, hnot⟩ := (serveCard_eq_card_iff hsound hcontext hempty).mp hcard
          exact hnot ⟨Nat.zero_le _, fun _ h => absurd h List.not_mem_nil⟩
        · rintro ⟨-, other, world, grants, hother, -⟩
          cases hunique _ hother
    | inForce parsed world grants =>
        obtain ⟨hsubject, authority, hloaded, hgrants⟩ := hsound
        have hentries : WithinList (reachOver world grants) :=
          withinList_reachOver hloaded hgrants
        show serveCard view parsed context (reachOver world grants) = .error .card ↔ _
        rw [serveCard_eq_card_iff hsubject hcontext hentries, summarizable_reachOver]
        refine and_congr_right fun _ => ⟨fun hnot => ⟨parsed, world, grants, hmaterial, hnot⟩, ?_⟩
        rintro ⟨parsed', world', grants', hother, hnot⟩
        cases hunique _ hother
        exact hnot

end Operation

/-! ## A subject that can be read but not summarized -/

namespace Sample

/-- A reader who may read every card of the owner's world. -/
def directoryGrant : CapabilityGrant where
  id := "directory"
  namespaceId := Core.Sample.context.namespaceId
  subject := Core.Sample.context.actor
  issuer := Core.Sample.context.authority
  capabilities := [directoryCapability Core.Sample.context.owner]
  constraints := CapabilityConstraints.unbounded
  issuedAt := "2026-01-01T00:00:00Z"
  revokedAt := none
  parentGrantId := none
  metadata := none

/-- The agent whose card is read. -/
def peer : Address := .agent "peer"

/-- Actions named by one code unit each. -/
def actionsFrom (start count : ℕ) : List JsString :=
  (List.range count).map fun n => [Fin.ofNat _ (start + n)]

/-- Two capabilities in one namespace, together over one action more than a row lists. -/
def peerGrant : CapabilityGrant where
  id := "peer"
  namespaceId := Core.Sample.context.namespaceId
  subject := peer
  issuer := Core.Sample.context.authority
  capabilities :=
    [{ resource := { «namespace» := "files", path := ["a"], owner := none }
       actions := actionsFrom 0x100 64
       scope := .exact },
     { resource := { «namespace» := "files", path := ["b"], owner := none }
       actions := actionsFrom 0x140 1
       scope := .exact }]
  constraints := CapabilityConstraints.unbounded
  issuedAt := "2026-01-01T00:00:00Z"
  revokedAt := none
  parentGrantId := none
  metadata := none

/-- A kernel with nothing installed but its grant source. -/
def directoryKernel : SharedOSKernel where
  catalog := { tools := .empty, messageTool := none, toolProviders := [] }
  hasPolicySource := false
  hasUsageStore := false
  hasGrantVerifier := false
  hasDelegationResolver := false
  maxDelegationChainLength := none
  hasHostCeiling := false
  authorizerReportsErrors := false
  reportsAuditErrors := false
  reportsProviderErrors := false

/-- Surroundings in which every grant is loaded and every record is written. -/
def directory : (o : KernelOp) → o.Answer
  | .signalAborted => false
  | .leasedAuthority _ => none
  | .leasedRegistry _ => none
  | .leasedCatalogHash _ => none
  | .loadGrants context =>
    .fulfilled (.array [some (if context.actor = peer then peerGrant else directoryGrant)])
  | .loadPolicy _ => .threw
  | .verifyGrant .. => .rejected
  | .resolveParent .. => .rejected
  | .getUsage .. => .rejected
  | .tryConsume .. => .rejected
  | .narrow .. => .threw
  | .createAuditId => "audit"
  | .record _ => .fulfilled ()
  | .onAuditError _ => ()
  | .onProviderError _ => ()
  | .listTools .. => .threw
  | .parseArguments .. => .rejected
  | .resolveRequirement .. => .rejected
  | .invokeHandler .. => .threw
  | .dispatchCause _ => none
  | .heldContext _ was => was
  | .heldRequirement _ was => was

/-- The read ended with the throw over its card. -/
def threwCard : Except KernelError (Except AgentCardFault AgentCardRead) → Bool
  | .ok (.error .card) => true
  | _ => false

theorem eq_of_threwCard {r : Except KernelError (Except AgentCardFault AgentCardRead)}
    (h : threwCard r = true) : r = .ok (.error .card) := by
  unfold threwCard at h
  split at h
  · rfl
  · cases h

end Sample

open scoped SharedOS.Foundation.Reference in
/-- The reader is authorized, every grant is within its bounds, and the read throws. -/
theorem readAgentCard_throws_on_peer :
    accessContextSchema Core.Sample.context = some Core.Sample.context ∧
    ∃ t, (∀ e ∈ t, LeaseTrusted e) ∧
      Program.Finishes
        (readAgentCard Sample.directoryKernel Core.Sample.context Sample.peer .namespaces) t
        (.ok (.error .card)) := by
  refine ⟨by decide +kernel, ?_⟩
  let whole := Program.runWith Sample.directory
    (readAgentCard Sample.directoryKernel Core.Sample.context Sample.peer .namespaces)
  have hrun : Program.Finishes
      (readAgentCard Sample.directoryKernel Core.Sample.context Sample.peer .namespaces)
      whole.1 whole.2 := Program.finishes_runWith _ _
  have hend : whole.2 = .ok (.error .card) :=
    Sample.eq_of_threwCard (by decide +kernel)
  rw [hend] at hrun
  refine ⟨whole.1, fun e he key authority heq => ?_, hrun⟩
  -- no lease is held in these surroundings
  have hanswer := Program.mem_runWith he
  rw [heq] at hanswer
  cases hanswer

open scoped SharedOS.Foundation.Reference in
/-- The reader's own coarse card composes, so its grants in force were within the bounds. -/
theorem readAgentCard_composes_on_reader :
    ∃ t card, (∀ e ∈ t, LeaseTrusted e) ∧
      Program.Finishes (readAgentCard Sample.directoryKernel Core.Sample.context
        Core.Sample.context.actor .namespaces) t (.ok (.ok (.served card))) ∧
      ∀ parsed world grants,
        Program.Finishes (readCardMaterial Sample.directoryKernel Core.Sample.context
          Core.Sample.context.actor .namespaces) t (.ok (.inForce parsed world grants)) →
        Summarizable (projected world grants) := by
  let whole := Program.runWith Sample.directory (readAgentCard Sample.directoryKernel
    Core.Sample.context Core.Sample.context.actor .namespaces)
  have hrun : Program.Finishes (readAgentCard Sample.directoryKernel Core.Sample.context
      Core.Sample.context.actor .namespaces) whole.1 whole.2 := Program.finishes_runWith _ _
  obtain ⟨card, hend⟩ : ∃ card, whole.2 = .ok (.ok (.served card)) := ⟨_, rfl⟩
  rw [hend] at hrun
  have hleases : ∀ e ∈ whole.1, LeaseTrusted e := by
    intro e he key authority heq
    -- no lease is held in these surroundings
    have hanswer := Program.mem_runWith he
    rw [heq] at hanswer
    cases hanswer
  refine ⟨whole.1, card, hleases, hrun, fun parsed world grants hmaterial => ?_⟩
  by_contra hnot
  have hcard := (readAgentCard_composes_iff.2 _ _ _ _ _ _ (by decide +kernel) hleases hrun).mpr
    ⟨rfl, parsed, world, grants, hmaterial, hnot⟩
  cases hcard

end SharedOS.Kernel
