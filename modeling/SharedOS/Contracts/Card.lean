/-
SharedOS.Contracts.Card — the agent card: one subject, described in one of three named views.

A card is a view rather than a record. Each view declares its own fields and its own bounds: `reach`
lists entries, `identity` names the subject alone, `namespaces` says per namespace which actions are
reached and over how many entries.

The bounds are what a composed card may fail. A view is projected from the grants in force, and a
projection that is wider than its schema allows is refused whole rather than cut down, so the card a
reader gets is never a part of what was asked for (`Kernel.AgentCard`).

All three carry the same identity: the subject, the namespace it was read in and the instant.
-/
import SharedOS.Contracts.Parsed

namespace SharedOS.Contracts

open SharedOS.Foundation

/-- `AgentCardView`. -/
inductive AgentCardView where
  | reach
  | identity
  | namespaces
  deriving DecidableEq

/-- The word of a view. -/
def AgentCardView.text : AgentCardView → JsString
  | .reach => "reach"
  | .identity => "identity"
  | .namespaces => "namespaces"

/-- `AGENT_CARD_VIEWS`, in its order. -/
def agentCardViews : List AgentCardView := [.reach, .identity, .namespaces]

/-- One namespace the subject reaches, and how much of it, without paths. -/
structure ReachSummary where
  «namespace» : JsString
  actions : List JsString
  entries : ℕ

/-- The fields every view carries. -/
structure CardIdentity where
  subject : Address
  namespaceId : JsString
  readAt : JsString

/-- A card, by its view. -/
inductive AgentCard where
  | reach (identity : CardIdentity) (reach : List ResourceReach)
  | identity (identity : CardIdentity)
  | namespaces (identity : CardIdentity) (namespaces : List ReachSummary)

/-- `ReachListSchema`. -/
def reachListSchema : List ResourceReach → Option (List ResourceReach) :=
  arraySchema resourceReachSchema 0 16384

/-- `ReachSummarySchema`: at least one entry, and between 1 and 64 actions. -/
def reachSummarySchema (s : ReachSummary) : Option ReachSummary := do
  let «namespace» ← identifierSchema s.namespace
  let actions ← arraySchema actionSchema 1 64 s.actions
  if 0 < s.entries then some { «namespace», actions, entries := s.entries } else none

section Schemas

variable [HostPlatform]

/-- What the three views have in common. -/
def cardIdentitySchema (i : CardIdentity) : Option CardIdentity := do
  let subject ← i.subject.schema
  let namespaceId ← identifierSchema i.namespaceId
  let readAt ← timestampSchema i.readAt
  some { subject, namespaceId, readAt }

/-- `AgentCardSchema`. -/
def agentCardSchema : AgentCard → Option AgentCard
  | .reach identity reach => do
    let identity ← cardIdentitySchema identity
    let reach ← reachListSchema reach
    some (.reach identity reach)
  | .identity identity => (cardIdentitySchema identity).map .identity
  | .namespaces identity namespaces => do
    let identity ← cardIdentitySchema identity
    let namespaces ← arraySchema reachSummarySchema 0 256 namespaces
    some (.namespaces identity namespaces)

end Schemas

/-! ## What each schema leaves as it is -/

/-- An entry of parsed parts is its own parse. -/
theorem resourceReachSchema_eq_self {entry : ResourceReach}
    (hns : identifierSchema entry.namespace = some entry.namespace)
    (hpath : arraySchema pathSegmentSchema 0 64 entry.path = some entry.path)
    (hactions : arraySchema actionSchema 1 64 entry.actions = some entry.actions) :
    resourceReachSchema entry = some entry := by
  unfold resourceReachSchema
  rw [hns, hpath, hactions]
  rfl

/-- A summary of parsed parts is accepted exactly when it has few enough actions. -/
theorem reachSummarySchema_of_parts {s : ReachSummary}
    (hns : identifierSchema s.namespace = some s.namespace)
    (hactions : ∀ a ∈ s.actions, actionSchema a = some a) (hsome : s.actions ≠ [])
    (hentries : 0 < s.entries) :
    reachSummarySchema s = if s.actions.length ≤ 64 then some s else none := by
  have hlength : 1 ≤ s.actions.length := List.length_pos_iff.mpr hsome
  unfold reachSummarySchema
  rw [hns]
  by_cases hfew : s.actions.length ≤ 64
  · rw [arraySchema_eq_self_iff.mpr ⟨⟨hlength, hfew⟩, hactions⟩, if_pos hfew]
    show (if 0 < s.entries then some s else none) = some s
    rw [if_pos hentries]
  · have hnone : arraySchema actionSchema 1 64 s.actions = none := if_neg fun h => hfew h.2
    rw [hnone, if_neg hfew]
    rfl

end SharedOS.Contracts
