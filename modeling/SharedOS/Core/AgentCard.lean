/-
SharedOS.Core.AgentCard — where a card is read, what it is composed of, and when it can be served.

Each view of a card is a resource of its own under the subject's path. A reach and an identity are
always within the card's contract. The coarse view is not: it folds any number of entries into one
row, and the rows have the bounds of a single entry (`composeAgentCard_isSome_iff`).
-/
import SharedOS.Contracts.Card
import SharedOS.Core.Loading
import SharedOS.Core.MessageService
import SharedOS.Foundation.Grouping

namespace SharedOS.Core

open SharedOS.Foundation SharedOS.Contracts

/-! ## Paths and capabilities -/

/-- `DIRECTORY_NAMESPACE`. -/
def directoryNamespace : JsString := "sharedos"

/-- `DIRECTORY_RESOURCE_ROOT`. -/
def directoryResourceRoot : List JsString := ["directory"]

/-- `DIRECTORY_READ_ACTION`. -/
def directoryReadAction : JsString := "read"

/-- The resource one view of one subject's card is served from. -/
def agentCardPath (subject : Address) (view : AgentCardView) : List JsString :=
  let path := directoryResourceRoot ++ addressPath subject
  if view = .reach then path else path ++ [view.text]

/-- `agentCardCapability`. -/
def agentCardCapability (subject owner : Address) (view : AgentCardView) : Capability where
  resource :=
    { «namespace» := directoryNamespace, path := agentCardPath subject view, owner := some owner }
  actions := [directoryReadAction]
  scope := .exact

/-- The enumeration grant. -/
def directoryCapability (owner : Address) : Capability where
  resource :=
    { «namespace» := directoryNamespace, path := directoryResourceRoot, owner := some owner }
  actions := [directoryReadAction]
  scope := .descendants

/-- The authorization one card read is decided on. -/
def agentCardRequest (subject owner : Address) (view : AgentCardView) : CapabilityRequirement where
  resource :=
    { «namespace» := directoryNamespace, path := agentCardPath subject view, owner := some owner }
  action := directoryReadAction

/-- The context a subject's own grants are loaded under. -/
def subjectCardContext (reader : AccessContext) (subject : Address) : AccessContext :=
  { reader with actor := subject }

/-- The path of a card, by its length and its segments. -/
theorem agentCardPath_eq (subject : Address) (view : AgentCardView) :
    agentCardPath subject view =
      (["directory", subject.kind, subject.identifier] : List JsString) ++
        if view = .reach then [] else [view.text] := by
  unfold agentCardPath
  rw [addressPath_eq]
  cases view <;> rfl

/-- **A card path names one view of one address.** -/
theorem agentCardPath_injective :
    Function.Injective fun card : Address × AgentCardView => agentCardPath card.1 card.2 := by
  rintro ⟨a, view⟩ ⟨b, view'⟩ h
  change agentCardPath a view = agentCardPath b view' at h
  rw [agentCardPath_eq, agentCardPath_eq] at h
  simp only [List.cons_append, List.nil_append, List.cons.injEq, true_and] at h
  obtain ⟨hkind, hidentifier, hview⟩ := h
  have haddress := Address.eq_of_kind_identifier hkind hidentifier
  have hsame : view = view' := by
    cases view <;> cases view' <;> first
      | rfl
      | exact absurd hview (by decide)
  rw [haddress, hsame]

theorem agentCardPath_segments_iff {a : Address} (h : a.schema.isSome) (view : AgentCardView) :
    (∀ segment ∈ agentCardPath a view, (pathSegmentSchema segment).isSome) ↔
      isPathSegment (trim a.identifier) = true := by
  have hroot : ∀ segment ∈ directoryResourceRoot, (pathSegmentSchema segment).isSome := by
    intro segment hsegment
    rw [List.mem_singleton.mp hsegment]
    decide +kernel
  have hview : (pathSegmentSchema view.text).isSome := by
    cases view <;> dsimp only [AgentCardView.text] <;> decide +kernel
  have hpath : (∀ segment ∈ directoryResourceRoot ++ addressPath a,
      (pathSegmentSchema segment).isSome) ↔ isPathSegment (trim a.identifier) = true := by
    rw [List.forall_mem_append, addressPath_segments_iff h]
    exact and_iff_right hroot
  unfold agentCardPath
  split
  · exact hpath
  · rw [List.forall_mem_append, hpath, List.forall_mem_singleton]
    exact and_iff_left hview

/-! ## Every address and its grants -/

/-- The capabilities built for one address: to run it, to message it, to read its card. -/
def addressCapabilities (address owner : Address) : List Capability :=
  agentExecutionCapability address owner :: messageSendCapability address owner ::
    agentCardViews.map (agentCardCapability address owner)

/-- The address can be named by a path. -/
def NamesSegment (address : Address) : Prop := isPathSegment (trim address.identifier) = true

theorem addressCapabilities_accepted_iff {a owner : Address} (ha : a.schema.isSome)
    (howner : owner.schema.isSome) {c : Capability} (hc : c ∈ addressCapabilities a owner) :
    (capabilitySchema c).isSome ↔ NamesSegment a := by
  have hshort : (addressPath a).length ≤ 64 := by
    rw [addressPath_eq]
    simp
  rcases List.mem_cons.mp hc with rfl | hc
  · refine (capabilitySchema_isSome_iff ?_ howner ?_ hshort).trans (addressPath_segments_iff ha)
    all_goals decide +kernel
  · rcases List.mem_cons.mp hc with rfl | hc
    · refine (capabilitySchema_isSome_iff ?_ howner ?_ hshort).trans (addressPath_segments_iff ha)
      all_goals decide +kernel
    · obtain ⟨view, -, rfl⟩ := List.mem_map.mp hc
      refine (capabilitySchema_isSome_iff ?_ howner ?_ ?_).trans
        (agentCardPath_segments_iff ha view)
      · decide +kernel
      · decide +kernel
      · rw [agentCardPath_eq]
        split <;> simp

/-- **An address is grantable exactly when its identifier is a path segment**, and its paths are its
own either way. -/
theorem address_grantable_iff [HostPlatform] {a owner : Address} (ha : a.schema.isSome)
    (howner : owner.schema.isSome) :
    ((∀ segment ∈ addressPath a, (pathSegmentSchema segment).isSome) ↔ NamesSegment a) ∧
    (∀ c ∈ addressCapabilities a owner,
      ((capabilitySchema c).isSome ↔ NamesSegment a) ∧
      ∀ context grant, Loads context grant →
        (Loads context { grant with capabilities := [c] } ↔ NamesSegment a)) ∧
    (∀ b, addressPath a = addressPath b → a = b) ∧
    ∀ b view view', agentCardPath a view = agentCardPath b view' → a = b ∧ view = view' := by
  refine ⟨addressPath_segments_iff ha, fun c hc => ?_, fun b h => addressPath_injective h, ?_⟩
  · have haccepted := addressCapabilities_accepted_iff ha howner hc
    refine ⟨haccepted, fun context grant hloads => ?_⟩
    rw [loads_capability_iff hloads, haccepted]
  · intro b view view' h
    have hsame := @agentCardPath_injective (a, view) (b, view') h
    exact ⟨congrArg Prod.fst hsame, congrArg Prod.snd hsame⟩

open scoped SharedOS.Foundation.Reference in
theorem address_grantable_alice :
    (∀ segment ∈ addressPath (.agent "alice"), (pathSegmentSchema segment).isSome) ∧
    ∀ c ∈ addressCapabilities (.agent "alice") (.human "olga"), (capabilitySchema c).isSome := by
  obtain ⟨hsegments, hcapabilities, -, -⟩ :=
    @address_grantable_iff _ (.agent "alice") (.human "olga") (by decide +kernel)
      (by decide +kernel)
  have hsegment : NamesSegment (.agent "alice") := by
    show isPathSegment (trim _) = true
    decide +kernel
  exact ⟨hsegments.mpr hsegment, fun c hc => (hcapabilities c hc).1.mpr hsegment⟩

/-- A valid address no grant can name: its identifier holds a separator. -/
theorem address_not_grantable_separator :
    (Address.agent "team/alice").schema.isSome ∧
    ¬ (∀ segment ∈ addressPath (.agent "team/alice"), (pathSegmentSchema segment).isSome) ∧
    ∀ c ∈ addressCapabilities (.agent "team/alice") (.human "olga"),
      ¬ (capabilitySchema c).isSome := by
  decide +kernel

/-! ## Composing a card -/

/-- One row of the coarse view. -/
def describeRow (row : Tally JsString JsString) : ReachSummary where
  «namespace» := row.key
  actions := sortStrings row.values
  entries := row.count

/-- Which namespaces a reach touches and how much of each. -/
def summarizeReach (reach : List ResourceReach) : List ReachSummary :=
  (sortByKey Tally.key (tally ResourceReach.namespace ResourceReach.actions reach)).map describeRow

/-- A view is built from the fields it declares. -/
def cardCandidate (view : AgentCardView) (subject : Address) (context : AccessContext)
    (reach : List ResourceReach) : AgentCard :=
  let identity : CardIdentity :=
    { subject, namespaceId := context.namespaceId, readAt := context.now }
  match view with
  | .identity => .identity identity
  | .namespaces => .namespaces identity (summarizeReach reach)
  | .reach => .reach identity reach

section Compose

variable [HostPlatform]

/-- Compose the served view, and hold it to the card contract. -/
def composeAgentCard (view : AgentCardView) (subject : Address) (context : AccessContext)
    (reach : List ResourceReach) : Option AgentCard :=
  agentCardSchema (cardCandidate view subject context reach)

end Compose

/-- What the rows say of the reach they were made from. -/
structure Summarizes (reach : List ResourceReach) (rows : List ReachSummary) : Prop where
  once : (rows.map ReachSummary.namespace).Nodup
  namespaces : ∀ name, name ∈ rows.map ReachSummary.namespace ↔
    name ∈ reach.map ResourceReach.namespace
  union : ∀ row ∈ rows, ∀ action, action ∈ row.actions ↔
    ∃ entry ∈ reach, entry.namespace = row.namespace ∧ action ∈ entry.actions
  total : (rows.map ReachSummary.entries).sum = reach.length

/-- **The rows summarize the reach**, whatever it is. -/
theorem summarizeReach_summarizes (reach : List ResourceReach) :
    Summarizes reach (summarizeReach reach) := by
  have htallied : Tallied ResourceReach.namespace ResourceReach.actions reach _ :=
    tallied_tally reach
  have hperm : (sortByKey Tally.key (tally ResourceReach.namespace ResourceReach.actions
      reach)).Perm (tally ResourceReach.namespace ResourceReach.actions reach) :=
    List.perm_insertionSort _ _
  have hnames : (summarizeReach reach).map ReachSummary.namespace =
      (sortByKey Tally.key (tally ResourceReach.namespace ResourceReach.actions reach)).map
        Tally.key := by
    unfold summarizeReach
    rw [List.map_map]
    rfl
  have hcounts : (summarizeReach reach).map ReachSummary.entries =
      (sortByKey Tally.key (tally ResourceReach.namespace ResourceReach.actions reach)).map
        Tally.count := by
    unfold summarizeReach
    rw [List.map_map]
    rfl
  refine ⟨?_, fun name => ?_, ?_, ?_⟩
  · rw [hnames]
    exact (hperm.map Tally.key).nodup_iff.mpr htallied.distinct
  · rw [hnames, (hperm.map Tally.key).mem_iff, htallied.keys]
  · intro row hrow action
    obtain ⟨t, ht, rfl⟩ := List.mem_map.mp hrow
    show action ∈ sortStrings t.values ↔ _
    rw [mem_sortStrings, (htallied.each t (mem_sortByKey.mp ht)).union]
    rfl
  · rw [hcounts, (hperm.map Tally.count).sum_eq, htallied.total]

/-- The reach touches no more namespaces, and in no namespace more actions, than the coarse view may
list. -/
def Summarizable (reach : List ResourceReach) : Prop :=
  (reach.map ResourceReach.namespace).dedup.length ≤ 256 ∧
    ∀ name ∈ reach.map ResourceReach.namespace,
      ((reach.filter fun entry => entry.namespace = name).flatMap
        ResourceReach.actions).dedup.length ≤ 64

instance : DecidablePred Summarizable := fun reach =>
  inferInstanceAs (Decidable (_ ∧ ∀ name ∈ reach.map ResourceReach.namespace, _))

/-- It depends on the entries only as a set. -/
theorem summarizable_congr {xs ys : List ResourceReach} (h : ∀ entry, entry ∈ xs ↔ entry ∈ ys) :
    Summarizable xs ↔ Summarizable ys := by
  have hnames : ∀ name, name ∈ xs.map ResourceReach.namespace ↔
      name ∈ ys.map ResourceReach.namespace := by
    intro name
    simp only [List.mem_map, h]
  have hactions : ∀ name,
      ((xs.filter fun entry => entry.namespace = name).flatMap
        ResourceReach.actions).dedup.length =
      ((ys.filter fun entry => entry.namespace = name).flatMap
        ResourceReach.actions).dedup.length := by
    intro name
    refine length_dedup_of_mem_iff (List.nodup_dedup _) fun action => ?_
    rw [List.mem_dedup]
    simp only [List.mem_flatMap, List.mem_filter, h]
  have hlength : (xs.map ResourceReach.namespace).dedup.length =
      (ys.map ResourceReach.namespace).dedup.length := by
    refine length_dedup_of_mem_iff (List.nodup_dedup _) fun name => ?_
    rw [List.mem_dedup, hnames]
  unfold Summarizable
  simp only [hlength, hnames, hactions]

/-- The parts of a parsed entry. -/
theorem parsed_of_resourceReach {entry : ResourceReach} (h : resourceReachSchema entry = some entry) :
    identifierSchema entry.namespace = some entry.namespace ∧ entry.actions ≠ [] ∧
      ∀ a ∈ entry.actions, actionSchema a = some a := by
  unfold resourceReachSchema at h
  simp only [Option.bind_eq_bind, Option.bind_eq_some_iff] at h
  obtain ⟨name, hname, path, hpath, actions, hactions, heq⟩ := h
  have hentry := Option.some.inj heq
  have hns : name = entry.namespace := congrArg ResourceReach.namespace hentry
  have hact : actions = entry.actions := congrArg ResourceReach.actions hentry
  rw [hns] at hname
  rw [hact] at hactions
  obtain ⟨hbounds, hitems⟩ := arraySchema_eq_self_iff.mp hactions
  exact ⟨hname, List.length_pos_iff.mp hbounds.1, hitems⟩

/-- A row over a parsed reach is of parsed parts, so only its number of actions can refuse it. -/
theorem reachSummarySchema_describeRow {reach : List ResourceReach}
    (hparsed : ∀ entry ∈ reach, resourceReachSchema entry = some entry)
    {t : Tally JsString JsString}
    (ht : t ∈ tally ResourceReach.namespace ResourceReach.actions reach) :
    reachSummarySchema (describeRow t) =
      if t.values.length ≤ 64 then some (describeRow t) else none := by
  have htallied : Tallied ResourceReach.namespace ResourceReach.actions reach _ :=
    tallied_tally reach
  have hof := htallied.each t ht
  -- some entry of the reach is under the row's namespace
  obtain ⟨entry, hentry, hname⟩ := List.mem_map.mp
    ((htallied.keys t.key).mp (List.mem_map_of_mem ht))
  obtain ⟨hns, hnonempty, -⟩ := parsed_of_resourceReach (hparsed entry hentry)
  have hactions : ∀ a ∈ (describeRow t).actions, actionSchema a = some a := by
    intro a ha
    obtain ⟨e, he, -, hae⟩ := (hof.union a).mp (mem_sortStrings.mp ha)
    exact (parsed_of_resourceReach (hparsed e he)).2.2 a hae
  have hsome : (describeRow t).actions ≠ [] := by
    obtain ⟨a, ha⟩ := List.exists_mem_of_ne_nil _ hnonempty
    exact List.ne_nil_of_mem (mem_sortStrings.mpr ((hof.union a).mpr ⟨entry, hentry, hname, ha⟩))
  rw [hname] at hns
  rw [reachSummarySchema_of_parts hns hactions hsome (htallied.counted t ht)]
  show (if (sortStrings t.values).length ≤ 64 then _ else _) = _
  rw [(sortStrings_perm t.values).length_eq]

/-- **When the rows keep the contract**, for a reach of parsed entries. -/
theorem summarizeReach_schema {reach : List ResourceReach}
    (hparsed : ∀ entry ∈ reach, resourceReachSchema entry = some entry) :
    arraySchema reachSummarySchema 0 256 (summarizeReach reach) =
      if Summarizable reach then some (summarizeReach reach) else none := by
  have htallied : Tallied ResourceReach.namespace ResourceReach.actions reach _ :=
    tallied_tally reach
  have hlength : (summarizeReach reach).length =
      (reach.map ResourceReach.namespace).dedup.length := by
    have hrows : (tally ResourceReach.namespace ResourceReach.actions reach).length = _ :=
      tally_length reach
    unfold summarizeReach
    rw [List.length_map, ← hrows]
    exact (List.perm_insertionSort _ _).length_eq
  by_cases h : Summarizable reach
  · rw [if_pos h]
    refine arraySchema_eq_self_iff.mpr ⟨⟨Nat.zero_le _, hlength ▸ h.1⟩, fun row hrow => ?_⟩
    obtain ⟨t, ht, rfl⟩ := List.mem_map.mp hrow
    have ht' := mem_sortByKey.mp ht
    rw [reachSummarySchema_describeRow hparsed ht', if_pos]
    rw [tally_values_length ht']
    exact h.2 t.key ((htallied.keys _).mp (List.mem_map_of_mem ht'))
  · rw [if_neg h]
    refine Option.not_isSome_iff_eq_none.mp fun hsome => h ?_
    obtain ⟨hbounds, hrows⟩ := arraySchema_isSome_iff.mp hsome
    refine ⟨hlength ▸ hbounds.2, fun name hname => ?_⟩
    obtain ⟨t, ht, rfl⟩ := List.mem_map.mp ((htallied.keys name).mpr hname)
    have hrow := hrows _ (List.mem_map.mpr ⟨t, mem_sortByKey.mpr ht, rfl⟩)
    rw [reachSummarySchema_describeRow hparsed ht] at hrow
    rw [← tally_values_length ht]
    by_contra hmany
    rw [if_neg hmany] at hrow
    cases hrow

/-- A reach no larger than what one authority can project, of parsed entries. -/
structure WithinList (reach : List ResourceReach) : Prop where
  few : reach.length ≤ 16384
  parsed : ∀ entry ∈ reach, resourceReachSchema entry = some entry

section Contract

variable [HostPlatform]

/-- **When a card is composed**: always, but for the coarse view of a reach that cannot be
summarized. What is composed is the candidate itself. -/
theorem composeAgentCard_eq {view : AgentCardView} {subject : Address} {context : AccessContext}
    {reach : List ResourceReach} (hsubject : subject.schema = some subject)
    (hcontext : accessContextSchema context = some context) (hreach : WithinList reach) :
    composeAgentCard view subject context reach =
      if view = .namespaces → Summarizable reach then some (cardCandidate view subject context reach)
      else none := by
  have hidentity : cardIdentitySchema
        { subject, namespaceId := context.namespaceId, readAt := context.now } =
      some { subject, namespaceId := context.namespaceId, readAt := context.now } := by
    unfold cardIdentitySchema
    dsimp only
    rw [hsubject, (accessContext_parties hcontext).1, accessContextSchema_now hcontext]
    rfl
  cases view with
  | identity =>
      rw [if_pos (by simp)]
      show (cardIdentitySchema _).map AgentCard.identity = _
      rw [hidentity]
      rfl
  | reach =>
      have hlist : reachListSchema reach = some reach :=
        arraySchema_eq_self_iff.mpr ⟨⟨Nat.zero_le _, hreach.few⟩, hreach.parsed⟩
      rw [if_pos (by simp)]
      show (do
        let identity ← cardIdentitySchema _
        let reach ← reachListSchema reach
        some (AgentCard.reach identity reach)) = _
      rw [hidentity, hlist]
      rfl
  | namespaces =>
      show (do
        let identity ← cardIdentitySchema _
        let namespaces ← arraySchema reachSummarySchema 0 256 (summarizeReach reach)
        some (AgentCard.namespaces identity namespaces)) = _
      rw [hidentity, summarizeReach_schema hreach.parsed]
      by_cases h : Summarizable reach <;> simp [h, cardCandidate]

end Contract

end SharedOS.Core
