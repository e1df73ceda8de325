/-
SharedOS.Core.Containment — which accesses a capability permits, and when one capability is
within another.

The code compares capabilities in four places: against a request (`capabilityMatches`), against a
tool's declared ceiling (`capabilityIntersectsCeiling`), against an ancestor in one context
(`capabilityIsWithin`) and against a parent in every context (`capabilityIsWithinInAnyContext`).
Over them stands one definition, the set of accesses a capability permits to a context's owner.
Matching is membership in that set, meeting a ceiling is having an access beneath it, and
containment is inclusion.
-/
import SharedOS.Foundation.PathRegion
import SharedOS.Core.Internal

namespace SharedOS.Core

open SharedOS.Foundation SharedOS.Contracts

/-! ## The predicates of the source -/

/-- The action that stands for every action. -/
def anyAction : JsString := "*"

/-- The path test of a scope. -/
def scopeCovers (scope : Scope) (granted requested : List JsString) : Bool :=
  match scope with
  | .exact => pathsEqual granted requested
  | .descendants => pathIsWithin granted requested

section Predicates

variable [HostPlatform]

/-- `capabilityMatches`. -/
def capabilityMatches (capability : Capability) (request : CapabilityRequirement)
    (context : AccessContext) : Bool :=
  let grantedResource := capability.resource
  let requestedResource := request.resource
  if grantedResource.namespace ≠ requestedResource.namespace ||
      (!capability.actions.contains request.action && !capability.actions.contains anyAction) then
    false
  else
    let grantedOwner := grantedResource.owner.getD context.owner
    let requestedOwner := requestedResource.owner.getD context.owner
    if !addressesEqual grantedOwner requestedOwner then false
    else scopeCovers capability.scope grantedResource.path requestedResource.path

/-- `capabilityIntersectsCeiling`. -/
def capabilityIntersectsCeiling (capability : Capability) (ceiling : CapabilityRequirement)
    (context : AccessContext) : Bool :=
  let grantedResource := capability.resource
  let ceilingResource := ceiling.resource
  if grantedResource.namespace ≠ ceilingResource.namespace ||
      (!capability.actions.contains ceiling.action && !capability.actions.contains anyAction) then
    false
  else
    let grantedOwner := grantedResource.owner.getD context.owner
    let ceilingOwner := ceilingResource.owner.getD context.owner
    if !addressesEqual grantedOwner ceilingOwner then false
    else
      match capability.scope with
      | .exact => pathIsWithin ceilingResource.path grantedResource.path
      | .descendants =>
          pathIsWithin grantedResource.path ceilingResource.path ||
            pathIsWithin ceilingResource.path grantedResource.path

/-- The deciding side: is `capability` within `ancestor` for the owner of one context? -/
def capabilityIsWithin (capability ancestor : Capability) (owner : Address) : Bool :=
  if capability.resource.namespace ≠ ancestor.resource.namespace then false
  else if !addressesEqual (capability.resource.owner.getD owner)
      (ancestor.resource.owner.getD owner) then false
  else if !ancestor.actions.contains anyAction &&
      !capability.actions.all ancestor.actions.contains then false
  else
    match ancestor.scope with
    | .exact =>
        decide (capability.scope = .exact) &&
          pathsEqual ancestor.resource.path capability.resource.path
    | .descendants => pathIsWithin ancestor.resource.path capability.resource.path

/-- Whether the owners agree whoever presents the capability. -/
def ownerIsWithinInAnyContext (parentOwner childOwner : Option Address) : Bool :=
  match parentOwner, childOwner with
  | none, none => true
  | none, some _ => false
  | some _, none => false
  | some parentOwner, some childOwner => addressesEqual parentOwner childOwner

/-- The issuing side: is `child` within `parent` in every context it could be presented in? -/
def capabilityIsWithinInAnyContext (parent child : Capability) : Bool :=
  if parent.resource.namespace ≠ child.resource.namespace then false
  else if !ownerIsWithinInAnyContext parent.resource.owner child.resource.owner then false
  else
    let grantsEveryAction := parent.actions.contains anyAction
    if !grantsEveryAction && !child.actions.all parent.actions.contains then false
    else if child.actions.contains anyAction && !grantsEveryAction then false
    else
      match parent.scope with
      | .exact =>
          decide (child.scope = .exact) && pathsEqual parent.resource.path child.resource.path
      | .descendants => pathIsWithin parent.resource.path child.resource.path

/-- `resourceBelongsToContext`. -/
def resourceBelongsToContext (resource : ResourceRef) (context : AccessContext) : Bool :=
  match resource.owner with
  | none => true
  | some owner => addressesEqual owner context.owner

end Predicates

/-! ## The accesses a capability permits -/

/-- One concrete access: an action on one path of one owner's resources. -/
structure Access where
  «namespace» : JsString
  owner : Address
  path : List JsString
  action : JsString

/-- The access a requirement asks for in a context owned by `owner`. -/
def accessOf (request : CapabilityRequirement) (owner : Address) : Access where
  «namespace» := request.resource.namespace
  owner := request.resource.owner.getD owner
  path := request.resource.path
  action := request.action

/-- The paths a capability covers. -/
def regionOf (capability : Capability) : PathRegion JsString :=
  match capability.scope with
  | .exact => .node capability.resource.path
  | .descendants => .subtree capability.resource.path

/-- Whether a list of actions covers one action. -/
def ActionsCover (actions : List JsString) (action : JsString) : Prop :=
  action ∈ actions ∨ anyAction ∈ actions

/-- **The accesses a capability permits** in a context owned by `owner`. -/
def permits (capability : Capability) (owner : Address) : Set Access :=
  {a | capability.resource.namespace = a.namespace ∧ ActionsCover capability.actions a.action ∧
    capability.resource.owner.getD owner = a.owner ∧ a.path ∈ (regionOf capability).paths}

section Spec

theorem scopeCovers_iff {capability : Capability} {path : List JsString} :
    scopeCovers capability.scope capability.resource.path path = true ↔
      path ∈ (regionOf capability).paths := by
  unfold scopeCovers regionOf
  cases capability.scope with
  | exact => exact pathsEqual_iff.trans PathRegion.mem_node.symm
  | descendants => exact pathIsWithin_iff.trans PathRegion.mem_subtree.symm

variable [HostPlatform]

/-- The guards `capabilityMatches` and `capabilityIntersectsCeiling` share, before their path
tests. -/
theorem guards_iff {n m a : JsString} {actions : List JsString} {o p : Address} {b : Bool} :
    (if n ≠ m || (!actions.contains a && !actions.contains anyAction) then false
      else if !addressesEqual o p then false else b) = true ↔
      n = m ∧ ActionsCover actions a ∧ o = p ∧ b = true := by
  rw [← addressesEqual_iff, ActionsCover]
  split_ifs with h₁ h₂
  · refine iff_of_false (by simp) fun h => ?_
    simp only [ne_eq, Bool.or_eq_true, decide_eq_true_eq, Bool.and_eq_true, Bool.not_eq_true',
      List.contains_eq_mem, decide_eq_false_iff_not] at h₁
    rcases h₁ with hns | ⟨hact, hany⟩
    · exact hns h.1
    · exact h.2.1.elim hact hany
  · refine iff_of_false (by simp) fun h => ?_
    rw [h.2.2.1] at h₂
    exact absurd h₂ (by simp)
  · simp only [ne_eq, Bool.or_eq_true, decide_eq_true_eq, Bool.and_eq_true, Bool.not_eq_true',
      List.contains_eq_mem, decide_eq_false_iff_not, not_or, not_and, not_not] at h₁
    have hown : addressesEqual o p = true := by simpa using h₂
    have hact : a ∈ actions ∨ anyAction ∈ actions := by
      by_cases hin : a ∈ actions
      · exact .inl hin
      · exact .inr (h₁.2 hin)
    exact ⟨fun h => ⟨h₁.1, hact, hown, h⟩, fun h => h.2.2.2⟩

/-- **Matching is membership.** -/
theorem capabilityMatches_iff {capability : Capability} {request : CapabilityRequirement}
    {context : AccessContext} :
    capabilityMatches capability request context = true ↔
      accessOf request context.owner ∈ permits capability context.owner := by
  show _ ↔ capability.resource.namespace = request.resource.namespace ∧
    ActionsCover capability.actions request.action ∧
    capability.resource.owner.getD context.owner = request.resource.owner.getD context.owner ∧
    request.resource.path ∈ (regionOf capability).paths
  rw [← scopeCovers_iff]
  exact guards_iff

/-- **Meeting a ceiling is permitting an access beneath it.** -/
theorem capabilityIntersectsCeiling_iff {capability : Capability}
    {ceiling : CapabilityRequirement} {context : AccessContext} :
    capabilityIntersectsCeiling capability ceiling context = true ↔
      ∃ path, ceiling.resource.path <+: path ∧
        { accessOf ceiling context.owner with path } ∈ permits capability context.owner := by
  have hpath : (match capability.scope with
      | .exact => pathIsWithin ceiling.resource.path capability.resource.path
      | .descendants => pathIsWithin capability.resource.path ceiling.resource.path ||
          pathIsWithin ceiling.resource.path capability.resource.path) = true ↔
        (regionOf capability).Meets ceiling.resource.path := by
    unfold regionOf
    cases capability.scope with
    | exact => exact pathIsWithin_iff.trans PathRegion.node_meets.symm
    | descendants =>
        rw [PathRegion.subtree_meets, Bool.or_eq_true, pathIsWithin_iff, pathIsWithin_iff]
  refine guards_iff.trans ?_
  rw [hpath]
  constructor
  · rintro ⟨hns, hact, hown, path, hin, hbelow⟩
    exact ⟨path, hbelow, hns, hact, hown, hin⟩
  · rintro ⟨path, hbelow, hns, hact, hown, hin⟩
    exact ⟨hns, hact, hown, path, hin, hbelow⟩

/-! ## Containment -/

omit [HostPlatform] in
/-- The path test both containment predicates make. -/
theorem regionWithin_iff {inner outer : Capability} :
    (match outer.scope with
      | .exact => decide (inner.scope = .exact) && pathsEqual outer.resource.path inner.resource.path
      | .descendants => pathIsWithin outer.resource.path inner.resource.path) = true ↔
      (regionOf inner).paths ⊆ (regionOf outer).paths := by
  unfold regionOf
  cases outer.scope with
  | exact =>
      cases inner.scope with
      | exact =>
          rw [PathRegion.node_subset, PathRegion.mem_node]
          simp
      | descendants =>
          exact iff_of_false (by simp) PathRegion.not_subtree_subset_node
  | descendants =>
      refine pathIsWithin_iff.trans ?_
      rw [PathRegion.subset_subtree]
      cases inner.scope <;> exact Iff.rfl

/-- What deciding-side containment checks. -/
theorem capabilityIsWithin_iff {capability ancestor : Capability} {owner : Address} :
    capabilityIsWithin capability ancestor owner = true ↔
      capability.resource.namespace = ancestor.resource.namespace ∧
      capability.resource.owner.getD owner = ancestor.resource.owner.getD owner ∧
      (anyAction ∈ ancestor.actions ∨ ∀ a ∈ capability.actions, a ∈ ancestor.actions) ∧
      (regionOf capability).paths ⊆ (regionOf ancestor).paths := by
  rw [← regionWithin_iff, ← addressesEqual_iff]
  unfold capabilityIsWithin
  split_ifs with h₁ h₂ h₃
  · exact iff_of_false (by simp) fun h => h₁ h.1
  · refine iff_of_false (by simp) fun h => ?_
    rw [h.2.1] at h₂
    exact absurd h₂ (by simp)
  · refine iff_of_false (by simp) fun h => ?_
    simp only [Bool.and_eq_true, Bool.not_eq_true', List.contains_eq_mem,
      decide_eq_false_iff_not, List.all_eq_false, decide_eq_true_eq] at h₃
    obtain ⟨hany, a, ha, hmissing⟩ := h₃
    exact h.2.2.1.elim hany fun hall => hmissing (hall a ha)
  · have hown : addressesEqual (capability.resource.owner.getD owner)
        (ancestor.resource.owner.getD owner) = true := by simpa using h₂
    have hact : anyAction ∈ ancestor.actions ∨
        ∀ a ∈ capability.actions, a ∈ ancestor.actions := by
      simpa [Decidable.or_iff_not_imp_left] using h₃
    exact ⟨fun h => ⟨not_not.mp h₁, hown, hact, h⟩, fun h => h.2.2.2⟩

/-- **Containment is inclusion**: what the contained capability permits, the other permits. -/
theorem permits_subset_of_within {capability ancestor : Capability} {owner : Address}
    (h : capabilityIsWithin capability ancestor owner = true) :
    permits capability owner ⊆ permits ancestor owner := by
  obtain ⟨hns, hown, hact, hpath⟩ := capabilityIsWithin_iff.mp h
  rintro a ⟨ans, aact, aown, apath⟩
  refine ⟨hns.symm.trans ans, ?_, hown.symm.trans aown, hpath apath⟩
  rcases hact with hany | hall
  · exact .inr hany
  · exact aact.imp (hall _) (hall _)

/-- What issuing-side containment checks. -/
theorem capabilityIsWithinInAnyContext_iff {parent child : Capability} :
    capabilityIsWithinInAnyContext parent child = true ↔
      parent.resource.namespace = child.resource.namespace ∧
      parent.resource.owner = child.resource.owner ∧
      (anyAction ∈ parent.actions ∨ ∀ a ∈ child.actions, a ∈ parent.actions) ∧
      (regionOf child).paths ⊆ (regionOf parent).paths := by
  have howner : ownerIsWithinInAnyContext parent.resource.owner child.resource.owner = true ↔
      parent.resource.owner = child.resource.owner := by
    unfold ownerIsWithinInAnyContext
    cases parent.resource.owner <;> cases child.resource.owner <;> simp
  rw [← regionWithin_iff, ← howner]
  unfold capabilityIsWithinInAnyContext
  dsimp only
  split_ifs with h₁ h₂ h₃ h₄
  · exact iff_of_false (by simp) fun h => h₁ h.1
  · refine iff_of_false (by simp) fun h => ?_
    rw [h.2.1] at h₂
    exact absurd h₂ (by simp)
  · refine iff_of_false (by simp) fun h => ?_
    simp only [Bool.and_eq_true, Bool.not_eq_true', List.contains_eq_mem,
      decide_eq_false_iff_not, List.all_eq_false, decide_eq_true_eq] at h₃
    obtain ⟨hany, a, ha, hmissing⟩ := h₃
    exact h.2.2.1.elim hany fun hall => hmissing (hall a ha)
  · -- a child that asks for every action needs a parent that has it
    refine iff_of_false (by simp) fun h => ?_
    simp only [Bool.and_eq_true, Bool.not_eq_true', List.contains_eq_mem,
      decide_eq_false_iff_not, decide_eq_true_eq] at h₄
    exact h.2.2.1.elim h₄.2 fun hall => h₄.2 (hall _ h₄.1)
  · have hown : ownerIsWithinInAnyContext parent.resource.owner child.resource.owner = true := by
      simpa using h₂
    have hact : anyAction ∈ parent.actions ∨ ∀ a ∈ child.actions, a ∈ parent.actions := by
      simpa [Decidable.or_iff_not_imp_left] using h₃
    exact ⟨fun h => ⟨not_not.mp h₁, hown, hact, h⟩, fun h => h.2.2.2⟩

/-- **The issuing side is the stricter one**: containment in any context is containment in each. -/
theorem capabilityIsWithin_of_anyContext {parent child : Capability}
    (h : capabilityIsWithinInAnyContext parent child = true) (owner : Address) :
    capabilityIsWithin child parent owner = true := by
  obtain ⟨hns, hown, hact, hpath⟩ := capabilityIsWithinInAnyContext_iff.mp h
  exact capabilityIsWithin_iff.mpr ⟨hns.symm, by rw [hown], hact, hpath⟩

@[simp] theorem resourceBelongsToContext_iff {resource : ResourceRef} {context : AccessContext} :
    resourceBelongsToContext resource context = true ↔
      resource.owner.getD context.owner = context.owner := by
  unfold resourceBelongsToContext
  cases resource.owner <;> simp

end Spec

/-! ## Containment is exactly inclusion -/

/-- The requirement that asks for one access, naming its owner. -/
def requirementFor (access : Access) : CapabilityRequirement where
  resource := { «namespace» := access.namespace, path := access.path, owner := some access.owner }
  action := access.action

@[simp] theorem accessOf_requirementFor (access : Access) (owner : Address) :
    accessOf (requirementFor access) owner = access := rfl

/-- A context owned by `owner`. -/
def contextOwnedBy (owner : Address) : AccessContext where
  namespaceId := ""
  actor := owner
  authority := owner
  owner := owner
  purpose := ""
  traceId := ""
  executionId := none
  enabledToolNamespaces := []
  now := ""

/-- With an action to ask for, inclusion of what is permitted needs every check of containment. -/
theorem within_of_permits_subset {capability ancestor : Capability} {owner : Address}
    (hactions : capability.actions ≠ [])
    (h : permits capability owner ⊆ permits ancestor owner) :
    capability.resource.namespace = ancestor.resource.namespace ∧
      capability.resource.owner.getD owner = ancestor.resource.owner.getD owner ∧
      (anyAction ∈ ancestor.actions ∨ ∀ a ∈ capability.actions, a ∈ ancestor.actions) ∧
      (regionOf capability).paths ⊆ (regionOf ancestor).paths := by
  -- one access for each listed action and each covered path
  have hall : ∀ a ∈ capability.actions, ∀ p ∈ (regionOf capability).paths,
      (⟨capability.resource.namespace, capability.resource.owner.getD owner, p, a⟩ : Access) ∈
        permits ancestor owner := by
    intro a ha p hp
    exact h ⟨rfl, .inl ha, rfl, hp⟩
  obtain ⟨b, hb⟩ := List.exists_mem_of_ne_nil _ hactions
  have hroot := hall b hb _ (regionOf capability).root_mem
  refine ⟨hroot.1.symm, hroot.2.2.1.symm, ?_, ?_⟩
  · by_cases hany : anyAction ∈ ancestor.actions
    · exact .inl hany
    · refine .inr ?_
      intro a ha
      exact (hall a ha _ (regionOf capability).root_mem).2.1.resolve_right hany
  · intro p hp
    exact (hall b hb p hp).2.2.2

/-- A default that two optional owners agree under, whoever supplies it, is no difference. -/
theorem eq_of_getD_eq {p q : Option Address} (h : ∀ o, p.getD o = q.getD o) : p = q := by
  cases p with
  | none =>
      cases q with
      | none => rfl
      | some b =>
          -- two owners, and `b` cannot be both
          have h₁ : Address.human "" = b := h _
          have h₂ : Address.agent "" = b := h _
          exact absurd (h₁.trans h₂.symm) (by simp)
  | some a =>
      cases q with
      | none =>
          have h₁ : a = Address.human "" := h _
          have h₂ : a = Address.agent "" := h _
          exact absurd (h₁.symm.trans h₂) (by simp)
      | some b => exact congrArg some (h a)

section Exactness

variable [HostPlatform]

theorem permits_subset_iff {capability ancestor : Capability} {owner : Address}
    (hactions : capability.actions ≠ []) :
    permits capability owner ⊆ permits ancestor owner ↔
      capabilityIsWithin capability ancestor owner = true := by
  constructor
  · intro h
    exact capabilityIsWithin_iff.mpr (within_of_permits_subset hactions h)
  · intro h
    exact permits_subset_of_within h

/-- Inclusion of what is permitted is what requests can observe. -/
theorem permits_subset_iff_matches {capability ancestor : Capability} {owner : Address} :
    permits capability owner ⊆ permits ancestor owner ↔
      ∀ (request : CapabilityRequirement) (context : AccessContext), context.owner = owner →
        capabilityMatches capability request context = true →
          capabilityMatches ancestor request context = true := by
  constructor
  · rintro h request context rfl hmatch
    exact capabilityMatches_iff.mpr (h (capabilityMatches_iff.mp hmatch))
  · intro h access haccess
    have hmatch : capabilityMatches capability (requirementFor access) (contextOwnedBy owner) =
        true := capabilityMatches_iff.mpr haccess
    exact capabilityMatches_iff.mp (h _ (contextOwnedBy owner) rfl hmatch)

theorem capabilityIsWithinInAnyContext_iff_forall {parent child : Capability} :
    capabilityIsWithinInAnyContext parent child = true ↔
      ∀ owner, capabilityIsWithin child parent owner = true := by
  constructor
  · exact capabilityIsWithin_of_anyContext
  · intro h
    have hat := fun owner => capabilityIsWithin_iff.mp (h owner)
    obtain ⟨hns, -, hact, hpath⟩ := hat (.human "")
    exact capabilityIsWithinInAnyContext_iff.mpr
      ⟨hns.symm, eq_of_getD_eq fun o => (hat o).2.1.symm, hact, hpath⟩

/-- **Containment is exactly semantic containment.** In one context it says that every request the
contained capability answers is answered by the other, and on the issuing side that this holds
whoever owns the context. -/
theorem containment_is_semantic {capability ancestor : Capability}
    (hactions : capability.actions ≠ []) :
    (∀ owner, capabilityIsWithin capability ancestor owner = true ↔
      ∀ (request : CapabilityRequirement) (context : AccessContext), context.owner = owner →
        capabilityMatches capability request context = true →
          capabilityMatches ancestor request context = true) ∧
    (capabilityIsWithinInAnyContext ancestor capability = true ↔
      ∀ owner, capabilityIsWithin capability ancestor owner = true) := by
  refine ⟨?_, capabilityIsWithinInAnyContext_iff_forall⟩
  intro owner
  rw [← permits_subset_iff hactions, permits_subset_iff_matches]

end Exactness

namespace Sample

/-- Reading one page under `docs`. -/
def page : Capability where
  resource := { «namespace» := "files", path := ["docs", "page"], owner := none }
  actions := ["read"]
  scope := .exact

/-- Everything under `docs`, for one owner. -/
def shelf : Capability where
  resource := { «namespace» := "files", path := ["docs"], owner := some (.human "alice") }
  actions := ["*"]
  scope := .descendants

end Sample

open scoped SharedOS.Foundation.Reference in
theorem containment_is_semantic_page :
    ((∀ owner, capabilityIsWithin Sample.page Sample.shelf owner = true ↔
        ∀ (request : CapabilityRequirement) (context : AccessContext), context.owner = owner →
          capabilityMatches Sample.page request context = true →
            capabilityMatches Sample.shelf request context = true) ∧
      (capabilityIsWithinInAnyContext Sample.shelf Sample.page = true ↔
        ∀ owner, capabilityIsWithin Sample.page Sample.shelf owner = true)) ∧
    capabilityIsWithin Sample.page Sample.shelf (.human "alice") = true ∧
    capabilityIsWithin Sample.page Sample.shelf (.human "bob") = false :=
  ⟨containment_is_semantic (by decide), by decide, by decide⟩

end SharedOS.Core
