/-
SharedOS.Precedent.Admission — whether a finished proposal may be decided without a human.

The host proposes, citing precedents by id, and the rows are read again from a trusted lookup. Four
rules then decide: evidence that is merely similar may only narrow, nothing admitted is wider than
any precedent cited, the envelope is the tightest of them all, and every decision is marked.

The order is the source's. Before the lookup is asked, the proposal must be marked by a matcher, cite
something and propose no empty allow. The rows must be exactly the cited ones, and answer for this
owner in this namespace. Then the question of the request is compared with each row's by digest:
where all are the same the match is exact, and else it is fuzzy. An allow further needs every row to
be an approval given to this requester, and each proposed capability to be within one of every row's;
where the match is fuzzy, within one that was asked for as well.

A denial cites precedents too, and their capabilities do not bound it.

An admitted decision carries its mark as metadata: the matcher, the citations without repetition in
their order, and how good the match was.
-/
import SharedOS.Precedent.Key

namespace SharedOS.Precedent

open SharedOS.Foundation SharedOS.Contracts SharedOS.Core

/-! ## Data -/

/-- A resolved escalation a human approved, and the width they approved. -/
structure ApprovedPrecedent where
  requestId : JsString
  key : PrecedentKey
  capabilities : List Capability
  constraints : CapabilityConstraints

/-- A resolved escalation a human refused. It has no width to read. -/
structure RefusedPrecedent where
  requestId : JsString
  key : PrecedentKey

end SharedOS.Precedent

/-- An escalation that a human resolved, either way. -/
inductive SharedOS.Precedent where
  | approved (row : SharedOS.Precedent.ApprovedPrecedent)
  | refused (row : SharedOS.Precedent.RefusedPrecedent)

namespace SharedOS.Precedent

open SharedOS.Foundation SharedOS.Contracts SharedOS.Core

/-- The request a precedent decided. -/
def requestId : Precedent → JsString
  | .approved row => row.requestId
  | .refused row => row.requestId

/-- The question a precedent answered. -/
def key : Precedent → PrecedentKey
  | .approved row => row.key
  | .refused row => row.key

/-- The trusted lookup for the precedents a proposal cites. -/
structure PrecedentLookup (m : Type → Type) where
  load : JsString → List JsString → m (Settled (List Precedent))

/-- What the host would decide. -/
inductive ProposedAutoDecision where
  | deny
  | allow (capabilities : List Capability)

/-- A proposal, with the precedents it rests on. -/
structure AutoDecisionProposal where
  request : CapabilityRequest
  citedRequestIds : List JsString
  proposed : ProposedAutoDecision
  /-- `marker?.matcher`, where it is a string. -/
  matcher : Option JsString

/-- Whether every cited precedent answered this very question. -/
inductive PrecedentMatch where
  | exact
  | fuzzy
  deriving DecidableEq

/-- The word of a match. -/
def PrecedentMatch.text : PrecedentMatch → JsString
  | .exact => "exact"
  | .fuzzy => "fuzzy"

/-- Why a proposal is left to a human. -/
inductive PrecedentInadmissibleReason where
  | noPrecedentCited
  | autoDecisionUnmarked
  | emptyProposedCapability
  | precedentUnavailable
  | precedentNotThisOwner
  | precedentNotThisRequester
  | allowCitesRefusal
  | widerThanPrecedent
  | widerThanRequest
  | envelopeUnsatisfiable
  deriving DecidableEq

/-- What every admitted decision carries. -/
structure AdmittedCommon where
  citedRequestIds : List JsString
  «match» : PrecedentMatch
  metadata : Json

/-- An admitted allow: what it grants, and within which bounds. -/
structure AdmittedAllow extends AdmittedCommon where
  narrowed : Bool
  capabilities : List Capability
  constraints : CapabilityConstraints

/-- A decision that needs no human. -/
inductive AdmittedAutoDecision where
  | deny (decision : AdmittedCommon)
  | allow (decision : AdmittedAllow)

/-- What comes of a proposal. -/
inductive PrecedentAdmission where
  | admitted (decision : AdmittedAutoDecision)
  | inadmissible (reason : PrecedentInadmissibleReason)

/-! ## The rules -/

/-- `AUTO_DECIDED_METADATA_KEY`. -/
def autoDecidedMetadataKey : JsString := "autoDecided"

/-- The mark of a decision that no human made. -/
def autoDecidedJson (matcher : JsString) (citedRequestIds : List JsString)
    («match» : PrecedentMatch) : Json :=
  .obj [("matcher", .str matcher), ("citedRequestIds", jsonStrings citedRequestIds),
    ("match", .str «match».text)]

/-- Exactly the rows that were cited, in the order they were cited. -/
def citedPrecedents (loaded : List Precedent) (citedRequestIds : List JsString) :
    Option (List Precedent) :=
  if loaded.length ≠ citedRequestIds.length then none
  else
    let byId := loaded.foldl (setByKey Precedent.requestId) []
    if byId.length ≠ loaded.length then none
    else citedRequestIds.mapM fun id => byId.find? fun precedent => precedent.requestId = id

section Rules

variable [HostPlatform]

/-- `exact` only when every cited precedent is the identical question. -/
def matchKind (request : CapabilityRequest) (precedents : List Precedent) : PrecedentMatch :=
  let digest := precedentKeyDigest (precedentKey request)
  if precedents.all fun precedent => precedentKeyDigest precedent.key = digest then .exact
  else .fuzzy

/-- The cited rows as approvals of this requester, or the first reason that they are not. -/
def approvedPrecedents (request : CapabilityRequest) :
    List Precedent → Except PrecedentInadmissibleReason (List ApprovedPrecedent)
  | [] => .ok []
  | .refused _ :: _ => .error .allowCitesRefusal
  | .approved row :: rest =>
    if !addressesEqual row.key.requester request.requester then .error .precedentNotThisRequester
    else (approvedPrecedents request rest).map (row :: ·)

/-- The narrowest bound every cited precedent can live with. It may not be passed on. -/
def tightestEnvelope (precedents : List ApprovedPrecedent) : Option CapabilityConstraints := do
  let envelope ← tightestConstraints (precedents.map ApprovedPrecedent.constraints)
  capabilityConstraintsSchema { envelope with delegationDepth := some 0 }

/-- Admit an allow: within every approved precedent, under the tightest of their bounds. -/
def admitAllow (proposed : List Capability) (request : CapabilityRequest)
    (precedents : List Precedent) (common : AdmittedCommon) : PrecedentAdmission :=
  match approvedPrecedents request precedents with
  | .error reason => .inadmissible reason
  | .ok approvals =>
    let owner := request.owner
    if !proposed.all fun capability => approvals.all fun precedent =>
        precedent.capabilities.any fun allowed => capabilityIsWithin capability allowed owner then
      .inadmissible .widerThanPrecedent
    else
      let narrowed := decide (common.match = .fuzzy)
      if narrowed && !proposed.all fun capability =>
          request.capabilities.any fun asked => capabilityIsWithin capability asked owner then
        .inadmissible .widerThanRequest
      else
        match tightestEnvelope approvals with
        | none => .inadmissible .envelopeUnsatisfiable
        | some constraints =>
          .admitted (.allow { common with narrowed, capabilities := proposed, constraints })

/-- Whether the row answers for another namespace or another owner than the request. -/
def notThisOwner (request : CapabilityRequest) (precedent : Precedent) : Bool :=
  precedent.key.namespaceId ≠ request.namespaceId ||
    !addressesEqual precedent.key.owner request.owner

/-- What is decided once the rows are there. -/
def admitCited (proposal : AutoDecisionProposal) (matcher : JsString)
    (citedRequestIds : List JsString) (precedents : List Precedent) : PrecedentAdmission :=
  let request := proposal.request
  if precedents.any (notThisOwner request) then .inadmissible .precedentNotThisOwner
  else
    let «match» := matchKind request precedents
    let common : AdmittedCommon :=
      { citedRequestIds
        «match»
        metadata :=
          .obj [(autoDecidedMetadataKey, autoDecidedJson matcher citedRequestIds «match»)] }
    match proposal.proposed with
    | .deny => .admitted (.deny common)
    | .allow capabilities => admitAllow capabilities request precedents common

/-- Whether an allow is proposed at no width. -/
def ProposedAutoDecision.isEmptyAllow : ProposedAutoDecision → Bool
  | .deny => false
  | .allow capabilities => capabilities.length = 0

/-- Decide whether one finished proposal may be decided without a human. -/
def admitAutoDecision {m : Type → Type} [Monad m] (proposal : AutoDecisionProposal)
    (lookup : PrecedentLookup m) : m PrecedentAdmission :=
  match proposal.matcher with
  | none => pure (.inadmissible .autoDecisionUnmarked)
  | some matcher =>
    if (trim matcher).length = 0 then pure (.inadmissible .autoDecisionUnmarked)
    else
      -- citing one precedent twice is one citation
      let citedRequestIds := distinct proposal.citedRequestIds
      if citedRequestIds.length = 0 then pure (.inadmissible .noPrecedentCited)
      else if proposal.proposed.isEmptyAllow then pure (.inadmissible .emptyProposedCapability)
      else do
        match ← lookup.load proposal.request.namespaceId citedRequestIds with
        | .rejected => pure (.inadmissible .precedentUnavailable)
        | .fulfilled loaded =>
          match citedPrecedents loaded citedRequestIds with
          | none => pure (.inadmissible .precedentUnavailable)
          | some precedents => pure (admitCited proposal matcher citedRequestIds precedents)

end Rules

end SharedOS.Precedent
