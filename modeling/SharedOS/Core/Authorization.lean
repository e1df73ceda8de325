/-
SharedOS.Core.Authorization — the authorizer: one decision, and the reach of an authority.

The authorizer calls a usage store, a grant verifier, a delegation resolver and a host ceiling.
Each is a port in a monad `m`, so the same definition is the pure decision at a fixed store and
the decision taken inside an operation whose ports answer as they like. A port answers with a
settled promise and so never throws past the code that calls it.

`decideOnGrants` walks the grants in order. `considerGrant` is the body of that loop and `walkGrants` the
loop. `reach` is the other walk: it projects every usable grant instead of stopping at the first.
-/
import SharedOS.Core.Authority
import SharedOS.Core.CapabilityRequest
import SharedOS.Core.Delegation
import SharedOS.Foundation.Listing

namespace SharedOS.Core

open SharedOS.Foundation SharedOS.Contracts

/-! ## Decisions -/

/-- `AuthorizationReasonCode`: why a decision came out as it did. -/
inductive AuthorizationReasonCode where
  | allowed
  | invalidContext
  | invalidRequest
  | noMatchingGrant
  | grantExhausted
  | delegationChainInvalid
  | authorityUnavailable
  | delegationChainUnverified
  | usageStoreUnavailable
  | hostPolicyDenied
  | hostPolicyUnavailable
  deriving DecidableEq

/-- The word of the code on the wire. -/
def AuthorizationReasonCode.text : AuthorizationReasonCode → JsString
  | .allowed => "allowed"
  | .invalidContext => "invalid_context"
  | .invalidRequest => "invalid_request"
  | .noMatchingGrant => "no_matching_grant"
  | .grantExhausted => "grant_exhausted"
  | .delegationChainInvalid => "delegation_chain_invalid"
  | .authorityUnavailable => "authority_unavailable"
  | .delegationChainUnverified => "delegation_chain_unverified"
  | .usageStoreUnavailable => "usage_store_unavailable"
  | .hostPolicyDenied => "host_policy_denied"
  | .hostPolicyUnavailable => "host_policy_unavailable"

/-- A portable explanation of one authorization check. -/
structure AuthorizationDecision where
  allowed : Bool
  reasonCode : AuthorizationReasonCode
  matchedGrantId : Option JsString
  requiredAuthority : Option CapabilityRequest
  metadata : Option Json

/-- `allow`: the decision names the grant it rests on. -/
def allow (grantId : JsString) : AuthorizationDecision where
  allowed := true
  reasonCode := .allowed
  matchedGrantId := some grantId
  requiredAuthority := none
  metadata := none

/-- `deny`. -/
def deny (reasonCode : AuthorizationReasonCode) (metadata : Option Json) :
    AuthorizationDecision where
  allowed := false
  reasonCode := reasonCode
  matchedGrantId := none
  requiredAuthority := none
  metadata := metadata

@[simp] theorem allow_allowed (grantId : JsString) : (allow grantId).allowed = true := rfl

@[simp] theorem deny_allowed (code : AuthorizationReasonCode) (metadata : Option Json) :
    (deny code metadata).allowed = false := rfl

/-- The first condition a resolved grant failed. -/
inductive GrantRejectionReason where
  | issuer
  | subject
  | namespace
  | window
  | purpose
  | verifier
  | capability
  | delegation
  | exhausted
  deriving DecidableEq

/-- A grant the walk passed over, and why. -/
structure GrantRejection where
  grantId : JsString
  reason : GrantRejectionReason
  deriving DecidableEq

/-- What the authorizer would have needed to decide, and was not given. -/
inductive MissingDependency where
  | usageStore
  | delegationResolver
  deriving DecidableEq

/-- Why a denial happened, addressed to the host. -/
structure AuthorizationExplanation where
  reasonCode : AuthorizationReasonCode
  grantsResolved : Nat
  rejections : List GrantRejection
  missingDependency : Option MissingDependency
  deriving DecidableEq

/-! ## Ports -/

/-- The host's counter of uses. Consuming one is a single test and set. -/
structure GrantUsageStore (m : Type → Type) where
  getUsage : JsString → JsString → m (Settled Int)
  tryConsume : JsString → JsString → Int → m (Settled Bool)

/-- The host's own word on a grant. -/
structure CapabilityGrantVerifier (m : Type → Type) where
  verify : CapabilityGrant → AccessContext → m (Settled Bool)

/-- What a call of `HostCeiling.narrow` came to. -/
inductive CeilingAnswer where
  | threw
  /-- A value that is not an object with a boolean `allowed`. -/
  | notAVerdict
  | allowed (matchedGrantId : Option JsString)
  | refused (metadata : Option Json)

/-- The host's ceiling, which may only narrow. -/
structure HostCeiling (m : Type → Type) where
  narrow : AuthorizationDecision → CapabilityRequirement → AccessContext → Option HostPolicy →
    m CeilingAnswer

/-- What kind of port threw. -/
inductive ProviderErrorKind where
  | tool
  | toolCatalog
  | resource
  | message
  | policy
  deriving DecidableEq

/-- What one contained throw was, in the kernel's own terms. -/
structure ProviderErrorContext where
  kind : ProviderErrorKind
  reasonCode : JsString
  traceId : JsString
  namespaceId : JsString
  operationId : Option JsString
  tool : Option JsString
  resource : Option ResourceRef
  action : Option JsString
  deriving DecidableEq

/-- What an authorizer is put together from. Every port may be missing. -/
structure CapabilityAuthorizerOptions (m : Type → Type) where
  usageStore : Option (GrantUsageStore m)
  grantVerifier : Option (CapabilityGrantVerifier m)
  delegationResolver : Option (DelegationChainResolver m)
  maxDelegationChainLength : Option Nat
  hostCeiling : Option (HostCeiling m)
  onProviderError : Option (ProviderErrorContext → m Unit)

/-! ## The decision -/

/-- How a request or a tool's ceiling is compared with a capability. -/
abbrev Matcher := Capability → CapabilityRequirement → AccessContext → Bool

/-- Whether a delegation is wrong or could not be checked. -/
inductive DelegationFailureStatus where
  | invalid
  | unverified
  deriving DecidableEq

/-- The first delegation the walk could not follow. -/
structure DelegationFailure where
  status : DelegationFailureStatus
  code : JsString
  grantId : JsString
  deriving DecidableEq

/-- An unverifiable chain outranks an invalid one. -/
def worstDelegationFailure (current : Option DelegationFailure) (candidate : DelegationFailure) :
    DelegationFailure :=
  match current with
  | none => candidate
  | some current =>
    if current.status = .invalid ∧ candidate.status = .unverified then candidate else current

/-- What a chain check that is not valid contributes. -/
def delegationFailureOf : DelegationValidation → Option DelegationFailure
  | .valid _ => none
  | .invalid _ code grantId => some { status := .invalid, code := code.text, grantId }
  | .unverified _ code grantId => some { status := .unverified, code := code.text, grantId }

/-- What the walk has accumulated. -/
structure GrantWalk where
  rejections : List GrantRejection
  foundExhaustedGrant : Bool
  policyDenial : Option AuthorizationDecision
  delegationFailure : Option DelegationFailure

/-- Before the first grant. -/
def GrantWalk.start : GrantWalk where
  rejections := []
  foundExhaustedGrant := false
  policyDenial := none
  delegationFailure := none

/-- One grant passed over. -/
def GrantWalk.reject (walk : GrantWalk) (grant : CapabilityGrant)
    (reason : GrantRejectionReason) : GrantWalk :=
  { walk with rejections := walk.rejections ++ [{ grantId := grant.id, reason }] }

/-- What considering one grant came to: the walk goes on, or a decision is taken. -/
inductive Consideration where
  | next (walk : GrantWalk)
  | decided (decision : AuthorizationDecision) (walk : GrantWalk)
      (missingDependency : Option MissingDependency)

/-- A decision together with its host-facing account. An allow has none. -/
structure Explained where
  decision : AuthorizationDecision
  explanation : Option AuthorizationExplanation

/-- `explained`: every denial leaves through here. -/
def explained (decision : AuthorizationDecision) (grantsResolved : Nat) (walk : GrantWalk)
    (missingDependency : Option MissingDependency) : Explained where
  decision := decision
  explanation :=
    if decision.allowed then none
    else
      some
        { reasonCode := decision.reasonCode
          grantsResolved
          rejections := walk.rejections
          missingDependency }

section Decide

variable [HostPlatform] {m : Type → Type} [Monad m]

/-- `#grantRejection`: the first eligibility condition the grant failed. -/
def grantRejection (options : CapabilityAuthorizerOptions m) (context : AccessContext)
    (grant : CapabilityGrant) (instants : GrantInstants) : m (Option GrantRejectionReason) :=
  if !addressesEqual grant.issuer context.authority then pure (some .issuer)
  else if !addressesEqual grant.subject context.actor then pure (some .subject)
  else if grant.namespaceId ≠ context.namespaceId then pure (some .namespace)
  else
    match grantInactiveReason grant context.purpose instants with
    | some .window => pure (some .window)
    | some .purpose => pure (some .purpose)
    | none =>
      match options.grantVerifier with
      | none => pure none
      | some verifier => do
        match ← verifier.verify grant context with
        | .fulfilled true => pure none
        | .fulfilled false => pure (some .verifier)
        | .rejected => pure (some .verifier)

/-- `#validateDelegation`. -/
def validateDelegation (options : CapabilityAuthorizerOptions m) (context : AccessContext)
    (grant : CapabilityGrant) (instants : GrantInstants) : m DelegationValidation :=
  validateDelegationChain grant context instants.now
    { resolver := options.delegationResolver
      maxChainLength := options.maxDelegationChainLength
      admittedAt := some instants.admittedAt }

/-- `#applyCeiling`: the decision a would-be allow becomes. -/
def applyCeiling (options : CapabilityAuthorizerOptions m) (grantId : JsString)
    (request : CapabilityRequirement) (context : AccessContext)
    (hostPolicy : Option PolicyResolution) : m AuthorizationDecision :=
  match options.hostCeiling with
  | none => pure (allow grantId)
  | some ceiling =>
    match hostPolicy with
    | some .unavailable => pure (deny .hostPolicyUnavailable none)
    | hostPolicy => do
      let policy := match hostPolicy with
        | some (.loaded policy _) => some policy
        | _ => none
      match ← ceiling.narrow (allow grantId) request context policy with
      | .threw =>
        match options.onProviderError with
        | none => pure ()
        | some report =>
          report
            { kind := .policy
              reasonCode := AuthorizationReasonCode.hostPolicyUnavailable.text
              traceId := context.traceId
              namespaceId := context.namespaceId
              operationId := none
              tool := none
              resource := some request.resource
              action := some request.action }
        pure (deny .hostPolicyUnavailable none)
      | .notAVerdict => pure (deny .hostPolicyUnavailable none)
      -- a ceiling may only repeat the allow it was shown
      | .allowed matchedGrantId =>
        if matchedGrantId = some grantId then pure (allow grantId)
        else pure (deny .hostPolicyUnavailable none)
      | .refused metadata =>
        pure
          { allowed := false
            reasonCode := .hostPolicyDenied
            matchedGrantId := some grantId
            requiredAuthority := none
            metadata }

/-- Whether a use of a bounded grant is available, spending it when `consume` is set. -/
def takeUse (store : GrantUsageStore m) (context : AccessContext) (grant : CapabilityGrant)
    (maximumUses : Int) (consume : Bool) : m (Settled Bool) :=
  if consume then store.tryConsume context.namespaceId grant.id maximumUses
  else do
    match ← store.getUsage context.namespaceId grant.id with
    | .fulfilled used => pure (.fulfilled (decide (used < maximumUses)))
    | .rejected => pure .rejected

/-- The end of the loop body: the grant carries the request, and only its budget is open. -/
def spendGrant (options : CapabilityAuthorizerOptions m) (context : AccessContext)
    (grant : CapabilityGrant) (consume : Bool) (walk : GrantWalk) : m Consideration :=
  match grant.constraints.maxUses with
  | none => pure (.decided (allow grant.id) walk none)
  | some maximumUses =>
    match options.usageStore with
    -- no budget can be read, and the walk ends here
    | none => pure (.decided (deny .usageStoreUnavailable none) walk (some .usageStore))
    | some store => do
      match ← takeUse store context grant maximumUses consume with
      | .fulfilled true => pure (.decided (allow grant.id) walk none)
      | .fulfilled false =>
        pure (.next { walk.reject grant .exhausted with foundExhaustedGrant := true })
      | .rejected => pure (.decided (deny .usageStoreUnavailable none) walk none)

/-- The body of the walk over the grants. -/
def considerGrant (options : CapabilityAuthorizerOptions m) (authority : ResolvedAuthority)
    (request : CapabilityRequirement) (matcher : Matcher) (consume : Bool)
    (instants : GrantInstants) (walk : GrantWalk) (grant : CapabilityGrant) : m Consideration := do
  let context := authority.context
  match ← grantRejection options context grant instants with
  | some reason => pure (.next (walk.reject grant reason))
  | none =>
    if !grant.capabilities.any fun candidate => matcher candidate request context then
      pure (.next (walk.reject grant .capability))
    else
      match delegationFailureOf (← validateDelegation options context grant instants) with
      | some failure =>
        pure (.next
          { walk.reject grant .delegation with
            delegationFailure := some (worstDelegationFailure walk.delegationFailure failure) })
      | none =>
        let narrowed ← applyCeiling options grant.id request context authority.hostPolicy
        -- a ceiling that cannot be read ends the walk, a refusal leaves the next grant its chance
        if narrowed.reasonCode = .hostPolicyUnavailable then pure (.decided narrowed walk none)
        else if !narrowed.allowed then
          pure (.next { walk with policyDenial := walk.policyDenial <|> some narrowed })
        else spendGrant options context grant consume walk

/-- The walk over the grants, up to the first decision. -/
def walkGrants (options : CapabilityAuthorizerOptions m) (authority : ResolvedAuthority)
    (request : CapabilityRequirement) (matcher : Matcher) (consume : Bool)
    (instants : GrantInstants) : GrantWalk → List CapabilityGrant → m Consideration
  | walk, [] => pure (.next walk)
  | walk, grant :: rest => do
    match ← considerGrant options authority request matcher consume instants walk grant with
    | .decided decision walk missingDependency =>
      pure (.decided decision walk missingDependency)
    | .next walk => walkGrants options authority request matcher consume instants walk rest

/-- The metadata of a denial for a chain. -/
def delegationMetadata (failure : DelegationFailure) : Json :=
  .obj [("delegation", .obj [("code", .str failure.code), ("grantId", .str failure.grantId)])]

/-- What a walk that took no decision denies with. -/
def denyWalk (options : CapabilityAuthorizerOptions m) (authority : ResolvedAuthority)
    (request : CapabilityRequirement) (describeMissing : Bool) (walk : GrantWalk) : Explained :=
  let grantsResolved := authority.grants.length
  -- a failed chain is named before the ceiling's refusal, and that before exhaustion
  match walk.delegationFailure with
  | some failure =>
    let missingDependency :=
      if failure.status = .unverified ∧ options.delegationResolver.isNone then
        some MissingDependency.delegationResolver
      else none
    let code := match failure.status with
      | .unverified => AuthorizationReasonCode.delegationChainUnverified
      | .invalid => .delegationChainInvalid
    explained (deny code (some (delegationMetadata failure))) grantsResolved walk missingDependency
  | none =>
    match walk.policyDenial with
    | some denial => explained denial grantsResolved walk none
    | none =>
      if walk.foundExhaustedGrant then
        explained (deny .grantExhausted none) grantsResolved walk none
      else
        let missing := deny .noMatchingGrant none
        if !describeMissing then explained missing grantsResolved walk none
        else
          let requiredAuthority := describeRequiredAuthority authority.context request
          explained { missing with requiredAuthority } grantsResolved walk none

/-- The instant of an operation, the turn's own where the caller names none. -/
def operationInstant (context : AccessContext) : Option JsString → Option Int
  | none => parseTimestamp (some context.now)
  | some now => parseTimestamp (some now)

/-- The instants of a decision, absent when the context is not one to decide in. -/
def decisionInstants (context : AccessContext) (operationNow : Option JsString) :
    Option GrantInstants :=
  match parseTimestamp (some context.now), operationInstant context operationNow with
  | some admittedAt, some now =>
    if context.purpose.length = 0 ∨ context.traceId.length = 0 then none
    else some { admittedAt, now }
  | _, _ => none

/-- Whether a request can be asked at all in this context. -/
def requestIsWellFormed (request : CapabilityRequirement) (context : AccessContext) : Bool :=
  request.action.length ≠ 0 && request.resource.namespace.length ≠ 0 &&
    resourceBelongsToContext request.resource context

/-- `#decide`. -/
def decideOnGrants (options : CapabilityAuthorizerOptions m) (authority : ResolvedAuthority)
    (request : CapabilityRequirement) (matcher : Matcher) (consume : Bool)
    (operationNow : Option JsString) (describeMissing : Bool) : m Explained :=
  let context := authority.context
  let grantsResolved := authority.grants.length
  match decisionInstants context operationNow with
  | none => pure (explained (deny .invalidContext none) grantsResolved .start none)
  | some instants =>
    if !requestIsWellFormed request context then
      pure (explained (deny .invalidRequest none) grantsResolved .start none)
    else do
      match ← walkGrants options authority request matcher consume instants .start
          authority.grants with
      | .decided decision walk missingDependency =>
        pure (explained decision grantsResolved walk missingDependency)
      | .next walk => pure (denyWalk options authority request describeMissing walk)

/-- `authorize`. -/
def authorize (options : CapabilityAuthorizerOptions m) (authority : ResolvedAuthority)
    (request : CapabilityRequirement) (consume : Bool) (now : Option JsString) : m Explained :=
  decideOnGrants options authority request capabilityMatches consume now true

/-- `canDiscover`: a non-consuming check against a tool's declared ceiling. -/
def canDiscover (options : CapabilityAuthorizerOptions m) (authority : ResolvedAuthority)
    (ceiling : CapabilityRequirement) (now : Option JsString) : m Explained :=
  decideOnGrants options authority ceiling capabilityIntersectsCeiling false now false

/-! ## Reach -/

/-- What is left of a grant's uses. -/
inductive BudgetStatus where
  | available
  | spent
  | unavailable
  deriving DecidableEq

/-- `#budgetLeft`. -/
def budgetLeft (options : CapabilityAuthorizerOptions m) (context : AccessContext)
    (grant : CapabilityGrant) : m BudgetStatus :=
  match grant.constraints.maxUses with
  | none => pure .available
  | some maximumUses =>
    match options.usageStore with
    | none => pure .unavailable
    | some store => do
      match ← store.getUsage context.namespaceId grant.id with
      | .fulfilled used => pure (if used < maximumUses then .available else .spent)
      | .rejected => pure .unavailable

/-- The key entries are deduplicated by. -/
def reachKey (entry : ResourceReach) : JsString := canonicalJson entry.toJson

/-- The key entries are ordered by: namespace, path, scope, actions. -/
def reachOrder (entry : ResourceReach) : JsString :=
  canonicalJson (.arr [.str entry.namespace, jsonStrings entry.path, entry.scope.toJson,
    jsonStrings entry.actions])

/-- The reach entry of one capability, for a capability of the context's own world. -/
def reachEntry (context : AccessContext) (capability : Capability) : Option ResourceReach :=
  if !addressesEqual (capability.resource.owner.getD context.owner) context.owner then none
  else
    some
      { «namespace» := capability.resource.namespace
        path := capability.resource.path
        actions := sortStrings capability.actions
        scope := capability.scope }

/-- What a reach came to while the grants are walked: entries so far, or a store that cannot
answer. -/
def collectReach (options : CapabilityAuthorizerOptions m) (context : AccessContext)
    (instants : GrantInstants) :
    List ResourceReach → List CapabilityGrant → m (Option (List ResourceReach))
  | entries, [] => pure (some entries)
  | entries, grant :: rest => do
    match ← grantRejection options context grant instants with
    | some _ => collectReach options context instants entries rest
    | none =>
      match delegationFailureOf (← validateDelegation options context grant instants) with
      | some _ => collectReach options context instants entries rest
      | none =>
        match ← budgetLeft options context grant with
        | .unavailable => pure none
        | .spent => collectReach options context instants entries rest
        | .available =>
          let projected := grant.capabilities.filterMap (reachEntry context)
          collectReach options context instants (projected.foldl (setByKey reachKey) entries) rest

/-- What asking for a reach answers. -/
inductive ReachResult where
  | computed (reach : List ResourceReach)
  | unavailable (reasonCode : AuthorizationReasonCode)
  deriving DecidableEq

/-- Entries in their canonical order. -/
def sortReach (entries : List ResourceReach) : List ResourceReach := sortByKey reachOrder entries

/-- `reach`: the surface an authority describes, with the authority removed. -/
def reach (options : CapabilityAuthorizerOptions m) (authority : ResolvedAuthority)
    (now : Option JsString) : m ReachResult :=
  match decisionInstants authority.context now with
  | none => pure (.computed [])
  | some instants => do
    match ← collectReach options authority.context instants [] authority.grants with
    | none => pure (.unavailable .usageStoreUnavailable)
    | some entries => pure (.computed (sortReach entries))

end Decide

end SharedOS.Core
