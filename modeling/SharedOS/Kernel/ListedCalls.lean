/-
SharedOS.Kernel.ListedCalls — what a turn is shown is what it can call.

A listing and a call find the same authority, the same registry and the same gate before a tool, but
each on its own. As long as what they read is answered the same, the two agree: a call's arguments are
read when its tool was listed, and a call of any other name is denied with nothing of a handler entered.

Each writes records of its own, under ids of its own, and what the sink answers is no part of the
promise. A call loads its authority again where no lease holds it, and where the sink refuses the
record of that load there is no call.
-/
import SharedOS.Foundation.Agreement
import SharedOS.Kernel.NamespaceCatalog
import SharedOS.Kernel.ToolListing

namespace SharedOS.Kernel

open SharedOS.Foundation SharedOS.Contracts SharedOS.Core

/-- The call is denied wherever it is answered, and no function of a handler is asked. -/
structure Denied (t : KernelTrace) (r : Except KernelError ToolResult) : Prop where
  looks : ∀ e ∈ t, Looks (.kernel e.1)
  denied : ∀ result, r = .ok result → result.status = .denied

/-- The sink refused the record of a load of the authority. -/
def AuthorityUnrecorded (t : KernelTrace) : Prop :=
  ∃ event, (event, Settled.rejected) ∈ records t ∧ event.type = .authorityResolved

theorem AuthorityUnrecorded.append {t : KernelTrace} (h : AuthorityUnrecorded t) (u : KernelTrace) :
    AuthorityUnrecorded (u ++ t) := by
  obtain ⟨event, hevent, htype⟩ := h
  refine ⟨event, ?_, htype⟩
  rw [records_append]
  exact List.mem_append_right _ hevent

/-- **What a call comes to**, by the tools that were listed. -/
structure CallAsListed (call : ToolCall) (tools : List ToolDefinition) (t : KernelTrace)
    (r : Except KernelError ToolResult) : Prop where
  /-- A listed tool reads the arguments, unless the call's authority could not be recorded. -/
  listed : call.tool ∈ tools.map ToolDefinition.name →
    (∃ handler x, ⟨.parseArguments handler call.arguments, x⟩ ∈ t ∧
      handler.definition ∈ tools ∧ handler.definition.name = call.tool) ∨
    r = .error (.auditUnavailable .none) ∧ AuthorityUnrecorded t
  withheld : call.tool ∉ tools.map ToolDefinition.name → Denied t r

section Gates

variable {w : (o : KernelOp) → o.Answer} {α : Type} {p : KernelM α}

/-- In the surroundings a program was run in before, it comes to what it came to. -/
theorem Ran.again {t u : KernelTrace} {a : α} {r : Except KernelError α} (hp : Program.Uses Plain p)
    (h : Ran p t a) (ht : Program.Steady Plain w t) (hu : Program.Steady Plain w u)
    (hrun : Program.Finishes p u r) : r = .ok a := by
  obtain ⟨before, v, after, rfl, hfirst⟩ := h
  have hv : Program.Steady Plain w v :=
    (Program.steady_append.mp (Program.steady_append.mp ht).1).2
  exact (hu.unique hp hv hrun hfirst).2

/-- A gate that was run before, and the call goes on from what it came to. -/
theorem finishes_again {f : α → KernelM ToolResult} {t u : KernelTrace} {a : α}
    {r : Except KernelError ToolResult} (hp : Program.Uses Plain p) (h : Ran p t a)
    (ht : Program.Steady Plain w t) (hu : Program.Steady Plain w u)
    (hrun : Program.Finishes (p >>= f) u r) :
    ∃ u₁ u₂, u = u₁ ++ u₂ ∧ Program.Finishes p u₁ (.ok a) ∧ Program.Finishes (f a) u₂ r ∧
      Program.Steady Plain w u₂ := by
  rcases Program.finishes_bind.mp hrun with ⟨e, rfl, hthrow⟩ | ⟨b, u₁, u₂, rfl, hfirst, hrest⟩
  · cases h.again hp ht hu hthrow
  · obtain ⟨hu₁, hu₂⟩ := Program.steady_append.mp hu
    cases h.again hp ht hu₁ hfirst
    exact ⟨u₁, u₂, rfl, hfirst, hrest, hu₂⟩

theorem Denied.after {t u : KernelTrace} {r : Except KernelError ToolResult} {a : α}
    (hp : Looking p) (hrun : Program.Finishes p t (.ok a))
    (h : Denied u r) : Denied (t ++ u) r where
  looks e he := (List.mem_append.mp he).elim (hp.trace hrun e) (h.looks e)
  denied := h.denied

/-- The gates before the tool change nothing of what is asked of a handler. -/
theorem CallAsListed.after {call : ToolCall} {tools : List ToolDefinition} {t u : KernelTrace}
    {r : Except KernelError ToolResult} {a : α} (hp : Looking p)
    (hrun : Program.Finishes p t (.ok a)) (h : CallAsListed call tools u r) :
    CallAsListed call tools (t ++ u) r where
  listed hname := by
    rcases h.listed hname with ⟨handler, x, hx, hmem⟩ | ⟨hthrown, hunrecorded⟩
    · exact .inl ⟨handler, x, List.mem_append_right t hx, hmem⟩
    · exact .inr ⟨hthrown, hunrecorded.append t⟩
  withheld hname := (h.withheld hname).after hp hrun

end Gates

section Calls

variable [HostPlatform] {kernel : SharedOSKernel} {context : AccessContext} {call : ToolCall}
  {authority : ResolvedAuthority} {w : (o : KernelOp) → o.Answer}

theorem denied_refuse {code message : JsString} {detail : ToolResultAuditDetail} {t : KernelTrace}
    {r : Except KernelError ToolResult}
    (h : Program.Finishes (refuse kernel context call .denied code message detail) t r) :
    Denied t r := by
  have huses : Looking (refuse kernel context call .denied code message detail) := by
    refine ⟨trivial, fun _ => ⟨trivial, fun _ => ⟨trivial, fun answer => ?_⟩⟩⟩
    cases answer with
    | fulfilled => trivial
    | rejected =>
        show Program.Uses _ ((if kernel.reportsAuditErrors then _ else _) >>= _)
        split
        · exact ⟨trivial, fun _ => trivial⟩
        · trivial
  have hreturns : Program.Returns (fun result : ToolResult => result.status = .denied)
      (refuse kernel context call .denied code message detail) :=
    Program.returns_bind fun _ => rfl
  refine ⟨huses.trace h, ?_⟩
  rintro result rfl
  exact hreturns.of_finishes h

omit [HostPlatform] in
theorem looking_recordAuthorizationDecision {request : CapabilityRequirement}
    {decision : AuthorizationDecision} {consume : Bool} {authorityHash operationId : Option JsString}
    {explanation : Option AuthorizationExplanation} :
    Looking (recordAuthorizationDecision context request decision consume authorityHash operationId
      explanation) := looking_record ..

/-! ## The authority -/

/-- The authority of the turn's lease, or what a load comes to with its host policy, before the record. -/
def heldOrLoaded (kernel : SharedOSKernel) (context : AccessContext) :
    KernelM (AuthorityResolution × Option (Option PolicyResolution)) := do
  match ← ask (.leasedAuthority (turnAuthorityKey context)) with
  | some resolution => pure (resolution, none)
  | none => do
    let resolved ← resolveGrants context
    let hostPolicy ← loadHostPolicy kernel context
    pure (withHostPolicy resolved hostPolicy, some hostPolicy)

/-- The record of a load, where there was one. -/
def recordLoad (kernel : SharedOSKernel) (context : AccessContext) :
    AuthorityResolution × Option (Option PolicyResolution) → KernelM AuthorityResolution
  | (resolution, none) => pure resolution
  | (resolution, some hostPolicy) => do
    let event ← stampEvent context (authorityResolved kernel resolution hostPolicy)
    recordDecision event
    pure resolution

theorem plain_heldOrLoaded : Program.Uses Plain (heldOrLoaded kernel context) := by
  refine ⟨trivial, fun leased => ?_⟩
  cases leased with
  | some resolution => trivial
  | none =>
      exact (plain_resolveGrants context).bind fun _ =>
        (plain_loadHostPolicy kernel context).bind fun _ => Program.uses_done _

theorem resolveTurnAuthority_eq : resolveTurnAuthority kernel context =
    heldOrLoaded kernel context >>= recordLoad kernel context := by
  refine congrArg (Program.ask _) (funext fun leased => ?_)
  cases leased with
  | some resolution => rfl
  | none =>
      show loadAuthority kernel context = (resolveGrants context >>= fun resolved =>
        loadHostPolicy kernel context >>= fun hostPolicy =>
          pure (withHostPolicy resolved hostPolicy, some hostPolicy)) >>= recordLoad kernel context
      rw [Program.bind_assoc]
      refine congrArg _ (funext fun resolved => ?_)
      rw [Program.bind_assoc]
      rfl

omit [HostPlatform] in
theorem returns_recordLoad (loaded : AuthorityResolution × Option (Option PolicyResolution)) :
    Program.Returns (fun resolution => resolution = loaded.1) (recordLoad kernel context loaded) := by
  obtain ⟨resolution, - | hostPolicy⟩ := loaded
  · rfl
  · intro id answer
    cases answer with
    | fulfilled => rfl
    | rejected => trivial

omit [HostPlatform] in
/-- It throws where the sink refuses it. -/
theorem unrecorded_recordLoad {loaded : AuthorityResolution × Option (Option PolicyResolution)}
    {t : KernelTrace} {e : KernelError}
    (h : Program.Finishes (recordLoad kernel context loaded) t (.error e)) :
    e = .auditUnavailable .none ∧ AuthorityUnrecorded t := by
  obtain ⟨resolution, - | hostPolicy⟩ := loaded
  · cases (Program.finishes_done.mp h).2
  · obtain ⟨id, u, rfl, hrecord⟩ := Program.finishes_ask.mp h
    obtain ⟨answer, u', rfl, hend⟩ := Program.finishes_ask.mp hrecord
    cases answer with
    | fulfilled => cases (Program.finishes_done.mp hend).2
    | rejected =>
        obtain ⟨rfl, hthrow⟩ := Program.finishes_throw.mp hend
        exact ⟨Except.error.inj hthrow, _, List.mem_cons_self,
          authorityResolved_type kernel resolution hostPolicy⟩

/-- **The authority of a listing is that of a call**, where the sink takes the record of it. -/
theorem authority_again {f : AuthorityResolution → KernelM ToolResult}
    {resolution : AuthorityResolution} {t u : KernelTrace} {r : Except KernelError ToolResult}
    (hran : Ran (resolveTurnAuthority kernel context) t resolution) (ht : Program.Steady Plain w t)
    (hu : Program.Steady Plain w u)
    (hrun : Program.Finishes (resolveTurnAuthority kernel context >>= f) u r) :
    (r = .error (.auditUnavailable .none) ∧ AuthorityUnrecorded u ∧
      ∀ e ∈ u, Looks (.kernel e.1)) ∨
    ∃ u₁ u₂, u = u₁ ++ u₂ ∧
      Program.Finishes (resolveTurnAuthority kernel context) u₁ (.ok resolution) ∧
      Program.Finishes (f resolution) u₂ r ∧ Program.Steady Plain w u₂ := by
  obtain ⟨before, v, after, rfl, hfirst⟩ := hran
  have hv : Program.Steady Plain w v :=
    (Program.steady_append.mp (Program.steady_append.mp ht).1).2
  have hagain : ∀ {u' r'}, Program.Steady Plain w u' →
      Program.Finishes (resolveTurnAuthority kernel context) u' r' →
      r' = .ok resolution ∨ r' = .error (.auditUnavailable .none) ∧ AuthorityUnrecorded u' := by
    intro u' r' hu' hrun'
    rw [resolveTurnAuthority_eq] at hfirst hrun'
    rcases hv.returned plain_heldOrLoaded returns_recordLoad hu' hfirst hrun' with
      hsame | ⟨e, loaded, u₁, u₂, rfl, rfl, hthrow⟩
    · exact .inl hsame
    · obtain ⟨rfl, hunrecorded⟩ := unrecorded_recordLoad hthrow
      exact .inr ⟨rfl, hunrecorded.append u₁⟩
  rcases Program.finishes_bind.mp hrun with ⟨e, rfl, hthrow⟩ | ⟨b, u₁, u₂, rfl, hsecond, hrest⟩
  · rcases hagain hu hthrow with hend | ⟨hend, hunrecorded⟩
    · cases hend
    · obtain rfl := Except.error.inj hend
      exact .inl ⟨rfl, hunrecorded, looking_resolveTurnAuthority.trace hthrow⟩
  · obtain ⟨hu₁, hu₂⟩ := Program.steady_append.mp hu
    rcases hagain hu₁ hsecond with hend | ⟨hend, -⟩
    · obtain rfl := Except.ok.inj hend
      exact .inr ⟨u₁, u₂, rfl, hsecond, hrest, hu₂⟩
    · cases hend

/-! ## The gate before a tool -/

/-- A tool whose ceiling met a grant reads the arguments. -/
theorem parsed_of_discovered {handler : ToolHandler} {explained : Explained} {t u : KernelTrace}
    {r : Except KernelError ToolResult}
    (hran : Ran (canDiscover kernel.authorizer authority handler.definition.requiredCapability
      (some context.now)) t explained) (hallowed : explained.decision.allowed = true)
    (ht : Program.Steady Plain w t) (hu : Program.Steady Plain w u)
    (hrun : Program.Finishes (discoverTool kernel context call authority handler) u r) :
    ∃ x, ⟨.parseArguments handler call.arguments, x⟩ ∈ u := by
  obtain ⟨u₁, u₂, rfl, -, hrest, -⟩ := finishes_again (plain_decideOnGrants ..) hran ht hu hrun
  rw [hallowed] at hrest
  obtain ⟨x, u₃, rfl, -⟩ := Program.finishes_ask.mp hrest
  exact ⟨x, List.mem_append_right u₁ List.mem_cons_self⟩

/-- One whose ceiling met none is unavailable. -/
theorem denied_of_undiscovered {handler : ToolHandler} {explained : Explained} {t u : KernelTrace}
    {r : Except KernelError ToolResult}
    (hran : Ran (canDiscover kernel.authorizer authority handler.definition.requiredCapability
      (some context.now)) t explained) (hallowed : explained.decision.allowed = false)
    (ht : Program.Steady Plain w t) (hu : Program.Steady Plain w u)
    (hrun : Program.Finishes (discoverTool kernel context call authority handler) u r) :
    Denied u r := by
  obtain ⟨u₁, u₂, rfl, hdecide, hrest, -⟩ :=
    finishes_again (plain_decideOnGrants ..) hran ht hu hrun
  apply Denied.after (looking_of_plain (plain_decideOnGrants ..)) hdecide
  rw [hallowed] at hrest
  rcases Program.finishes_bind.mp hrest with ⟨e, rfl, hthrow⟩ | ⟨_, u₃, u₄, rfl, hrecord, hrefuse⟩
  · refine ⟨looking_recordAuthorizationDecision.trace hthrow, ?_⟩
    intro result hresult
    cases hresult
  · exact (denied_refuse hrefuse).after looking_recordAuthorizationDecision hrecord

section Verdicts

variable {tools : ToolRegistry} {verdicts : List (ToolDefinition × Verdict)} {t u : KernelTrace}
  {r : Except KernelError ToolResult}

omit [HostPlatform] in
theorem mem_allowed_ofVerdicts {definition : ToolDefinition} :
    definition ∈ (Discovery.ofVerdicts verdicts).allowed ↔
      ∃ v ∈ verdicts, v.2.lists = true ∧ v.1 = definition := by
  simp [Discovery.ofVerdicts, and_assoc]

/-- A name is that of one tool of the registry. -/
theorem verdict_of_name (hall : verdicts.map Prod.fst = tools.definitions)
    {v : ToolDefinition × Verdict} (hv : v ∈ verdicts) {handler : ToolHandler}
    (hhandler : handler ∈ tools.tools) (hname : v.1.name = handler.definition.name) :
    v.1 = handler.definition := by
  apply List.inj_on_of_nodup_map tools.definitions_nodup _ _ hname
  · rw [← hall]
    exact List.mem_map_of_mem hv
  · exact mem_definitions.mpr (List.mem_map_of_mem hhandler)

/-- A tool that was judged is registered under its name. -/
theorem get_of_judged (hall : verdicts.map Prod.fst = tools.definitions)
    {v : ToolDefinition × Verdict} (hv : v ∈ verdicts) :
    ∃ handler, tools.get v.1.name = some handler ∧ v.1 = handler.definition := by
  have hregistered : v.1 ∈ tools.tools.map ToolHandler.definition := by
    rw [← mem_definitions, ← hall]
    exact List.mem_map_of_mem hv
  obtain ⟨registered, hregistered, hdefinition⟩ := List.mem_map.mp hregistered
  cases hget : tools.get v.1.name with
  | none =>
      have hnone := List.find?_eq_none.mp hget registered hregistered
      rw [hdefinition] at hnone
      simp at hnone
  | some handler =>
      obtain ⟨hhandler, hnamed⟩ := ToolRegistry.get_mem hget
      exact ⟨handler, rfl, verdict_of_name hall hv hhandler hnamed.symm⟩

/-- A tool that was listed reads the arguments. -/
theorem parsed_of_listed (hall : verdicts.map Prod.fst = tools.definitions)
    (hjudged : ∀ v ∈ verdicts, Judged kernel context authority t v.1 v.2)
    (ht : Program.Steady Plain w t) (hu : Program.Steady Plain w u)
    (hrun : Program.Finishes (findTool kernel context call authority tools) u r)
    (hcall : call.tool ∈ (Discovery.ofVerdicts verdicts).allowed.map ToolDefinition.name) :
    ∃ handler x, ⟨.parseArguments handler call.arguments, x⟩ ∈ u ∧
      handler.definition ∈ (Discovery.ofVerdicts verdicts).allowed ∧
      handler.definition.name = call.tool := by
  obtain ⟨definition, hmem, hname⟩ := List.mem_map.mp hcall
  obtain ⟨v, hv, hlists, rfl⟩ := mem_allowed_ofVerdicts.mp hmem
  obtain ⟨handler, hget, heq⟩ := get_of_judged hall hv
  unfold findTool findToolThen at hrun
  rw [← hname, hget] at hrun
  have hverdict := hjudged v hv
  obtain ⟨d, verdict⟩ := v
  cases hverdict with
  | disabled => cases hlists
  | decided henabled hran =>
      obtain rfl : d = handler.definition := heq
      dsimp only at hrun
      rw [if_neg (not_not.mpr henabled)] at hrun
      obtain ⟨x, hx⟩ := parsed_of_discovered hran hlists ht hu hrun
      exact ⟨handler, x, hx, hmem, hname⟩

/-- A call of any other name is denied: nothing is registered under it, or what is was withheld. -/
theorem denied_of_withheld (hall : verdicts.map Prod.fst = tools.definitions)
    (hjudged : ∀ v ∈ verdicts, Judged kernel context authority t v.1 v.2)
    (ht : Program.Steady Plain w t) (hu : Program.Steady Plain w u)
    (hrun : Program.Finishes (findTool kernel context call authority tools) u r)
    (hcall : call.tool ∉ (Discovery.ofVerdicts verdicts).allowed.map ToolDefinition.name) :
    Denied u r := by
  unfold findTool findToolThen at hrun
  cases hget : tools.get call.tool with
  | none =>
      rw [hget] at hrun
      exact denied_refuse hrun
  | some handler =>
      rw [hget] at hrun
      obtain ⟨hhandler, hnamed⟩ := ToolRegistry.get_mem hget
      have hmem : handler.definition ∈ verdicts.map Prod.fst := by
        rw [hall]
        exact mem_definitions.mpr (List.mem_map_of_mem hhandler)
      obtain ⟨v, hv, heq⟩ := List.mem_map.mp hmem
      have hwithheld : v.2.lists = false := by
        by_contra hlists
        apply hcall
        rw [← hnamed, ← heq]
        exact List.mem_map_of_mem (mem_allowed_ofVerdicts.mpr ⟨v, hv, by simpa using hlists, rfl⟩)
      have hverdict := hjudged v hv
      obtain ⟨d, verdict⟩ := v
      obtain rfl : d = handler.definition := heq
      dsimp only at hrun
      cases hverdict with
      | disabled hdisabled =>
          rw [if_pos hdisabled] at hrun
          exact denied_refuse hrun
      | decided henabled hran =>
          rw [if_neg (not_not.mpr henabled)] at hrun
          exact denied_of_undiscovered hran hwithheld ht hu hrun

/-- **The gate**, by the verdicts of the listing. -/
theorem asListed_findTool (hall : verdicts.map Prod.fst = tools.definitions)
    (hjudged : ∀ v ∈ verdicts, Judged kernel context authority t v.1 v.2)
    (ht : Program.Steady Plain w t) (hu : Program.Steady Plain w u)
    (hrun : Program.Finishes (findTool kernel context call authority tools) u r) :
    CallAsListed call (Discovery.ofVerdicts verdicts).allowed u r where
  listed hcall := .inl (parsed_of_listed hall hjudged ht hu hrun hcall)
  withheld hcall := denied_of_withheld hall hjudged ht hu hrun hcall

end Verdicts

/-! ## A listing, and a call -/

/-- A listing that answered had read the signal unfired. -/
theorem ran_throwIfAborted {tools : List ToolDefinition} {u : ListingTrace}
    (h : Program.Finishes (listTools kernel context) u (.ok tools)) :
    Ran throwIfAborted (askedOfKernel u) () := by
  unfold listTools at h
  rcases Program.finishes_bind.mp h with ⟨e, he, -⟩ | ⟨_, u₁, u₂, rfl, hfirst, -⟩
  · cases he
  · obtain ⟨t, r, hrun, hin, hr⟩ := Program.finishes_embed hfirst
    cases r with
    | error e => cases hr
    | ok _ =>
        rw [askedOfKernel_append, askedOfKernel_inListing hin]
        exact (Ran.of_finishes hrun).append _

/-- **What is listed is what can be called**, as long as the same questions have the same answers. -/
theorem called_as_listed (kernel : SharedOSKernel) (context : AccessContext) {call : ToolCall}
    (w : (o : KernelOp) → o.Answer) {tools : List ToolDefinition} {u : ListingTrace}
    {t : KernelTrace} {r : Except KernelError ToolResult}
    (hlist : Program.Finishes (listTools kernel context) u (.ok tools))
    (hu : Program.Steady Plain w (askedOfKernel u))
    (hcall : Program.Finishes (invokeTool kernel context call) t r)
    (ht : Program.Steady Plain w t) (htrace : call.traceId = context.traceId) :
    CallAsListed call tools t r := by
  obtain ⟨before, hash, id, event, hsplit, -, htold⟩ := (recorded_listTools hlist).answered _ rfl
  have hbefore : Program.Steady Plain w (askedOfKernel before) := by
    rw [hsplit, askedOfKernel_append] at hu
    exact (Program.steady_append.mp hu).1
  unfold invokeTool at hcall
  obtain ⟨t₁, t₂, rfl, hfirst, hrest, ht₂⟩ :=
    finishes_again plain_throwIfAborted (ran_throwIfAborted hlist) hu ht hcall
  rw [if_neg (not_not.mpr htrace)] at hrest
  -- a load that is not on record ends the call, listed or not
  have hunrecorded : ∀ {k : KernelTrace}, r = .error (.auditUnavailable .none) →
      AuthorityUnrecorded k → (∀ e ∈ k, Looks (.kernel e.1)) → CallAsListed call tools k r := by
    rintro k rfl hrecord hlooks
    exact ⟨fun _ => .inr ⟨rfl, hrecord⟩, fun _ => ⟨hlooks, nofun⟩⟩
  apply CallAsListed.after (looking_of_plain plain_throwIfAborted) hfirst
  generalize event.toAuditEventInput = input at htold
  cases htold with
  | unavailable hran =>
      rcases authority_again hran hbefore ht₂ hrest with ⟨hend, hrecord, hlooks⟩ |
        ⟨t₃, t₄, rfl, hauthority, hrefuse, -⟩
      · exact hunrecorded hend hrecord hlooks
      apply CallAsListed.after looking_resolveTurnAuthority hauthority
      refine ⟨fun hname => ?_, fun _ => denied_refuse hrefuse⟩
      cases hname
  | listed hran hregistry hall hjudged hpublished =>
      rcases authority_again hran hbefore ht₂ hrest with ⟨hend, hrecord, hlooks⟩ |
        ⟨t₃, t₄, rfl, hauthority, hfind, ht₄⟩
      · exact hunrecorded hend hrecord hlooks
      apply CallAsListed.after looking_resolveTurnAuthority hauthority
      unfold findCatalog findCatalogThen at hfind
      obtain ⟨t₅, t₆, rfl, hderive, htool, ht₆⟩ :=
        finishes_again (plain_resolveToolRegistry kernel context) hregistry hbefore ht₄ hfind
      apply CallAsListed.after (looking_of_plain (plain_resolveToolRegistry kernel context)) hderive
      exact asListed_findTool hall hjudged hbefore ht₆ htool

end Calls

namespace Sample

/-- A call of the tool whose namespace is not enabled. -/
def sending : ToolCall := { call with tool := "mail.send" }

/-- The surroundings of the listing, where records have another id. -/
def laterIds : (o : KernelOp) → o.Answer
  | .createAuditId => "later"
  | o => bothTools o

end Sample

open scoped SharedOS.Foundation.Reference in
theorem called_as_listed_sending : ∃ u tools t r,
    Program.Finishes (listTools Sample.kernel Core.Sample.context) u (.ok tools) ∧
    tools.map ToolDefinition.name = [("files.read" : JsString)] ∧
    Program.Finishes (invokeTool Sample.kernel Core.Sample.context Sample.sending) t r ∧
    Denied t r := by
  let listed := Program.runWith Sample.bothToolsListed (listTools Sample.kernel Core.Sample.context)
  let called := Program.runWith Sample.laterIds
    (invokeTool Sample.kernel Core.Sample.context Sample.sending)
  have hlist : Program.Finishes (listTools Sample.kernel Core.Sample.context) listed.1 listed.2 :=
    Program.finishes_runWith _ _
  have hcall : Program.Finishes (invokeTool Sample.kernel Core.Sample.context Sample.sending)
      called.1 called.2 := Program.finishes_runWith _ _
  have hsame : ∀ o, Plain o → Sample.laterIds o = Sample.bothTools o := by
    intro o ho
    cases o <;> first | rfl | exact ho.elim
  have hsteady : Program.Steady Plain Sample.bothTools called.1 := by
    intro e he hplain
    rw [Program.mem_runWith he]
    exact hsame _ hplain
  have hasked : Program.Steady Plain Sample.bothTools (askedOfKernel listed.1) := by
    intro e he _
    obtain ⟨⟨o, x⟩, hmem, hread⟩ := List.mem_filterMap.mp he
    cases o with
    | holdCatalogHash key hash => cases hread
    | kernel o =>
        cases hread
        have hanswer := Program.mem_runWith hmem
        exact eq_of_heq (Sigma.mk.inj hanswer).2
  have hnames : listed.2.map (fun tools => tools.map ToolDefinition.name) =
      .ok [("files.read" : JsString)] := rfl
  cases hend : listed.2 with
  | error e =>
      rw [hend] at hnames
      cases hnames
  | ok tools =>
      rw [hend] at hlist hnames
      have hname := Except.ok.inj hnames
      refine ⟨listed.1, tools, called.1, called.2, hlist, hname, hcall, ?_⟩
      apply (called_as_listed Sample.kernel Core.Sample.context Sample.bothTools hlist hasked hcall
        hsteady rfl).withheld
      intro hmem
      have hmem' : Sample.sending.tool ∈ [("files.read" : JsString)] := hname ▸ hmem
      exact absurd hmem' (by decide)

end SharedOS.Kernel
