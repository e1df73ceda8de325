/-
SharedOS.Kernel.TurnLease — the lease table behind `openTurnAuthority`.

A turn's authority is loaded once and held in a table under the turn's key. An open looks the key
up, loads when nothing is there, looks again, and installs or joins. A close gives one reference
back. The machine below takes one synchronous piece of one call at a time, so any number of opens,
closes and operations interleave. A call is named by its place in the list of calls and a scope by
its place in the list of returned scopes.

What a load came to is the label's to say: the answer of any grant source is covered.
-/
import SharedOS.Core.Authority
import SharedOS.Foundation.RefTable
import SharedOS.Foundation.Run
import Mathlib.Data.List.Basic

namespace SharedOS.Kernel

open SharedOS.Foundation SharedOS.Contracts SharedOS.Core

/-! ## The machine -/

/-- Why an open rejected. -/
inductive OpenError where
  | aborted
  | executionInProgress (executionId : JsString)
  | loadFailed

/-- Where one call of `openTurnAuthority` stands. -/
inductive OpenCall where
  /-- The first lookup found nothing, and the load is under way. -/
  | loading (context : AccessContext)
  | returned (scope : ℕ)
  | rejected (error : OpenError)

/-- A returned scope. `closed` is the variable its `close` closes over. -/
structure TurnScope where
  context : AccessContext
  resolution : AuthorityResolution
  closed : Bool

/-- One operation, and the lease it was answered from. With none it loads its own authority. -/
structure LeasedOperation where
  context : AccessContext
  answeredFrom : Option AuthorityResolution

/-- The table of leases, the opens under way, the scopes handed out and the operations seen. -/
structure LeaseState where
  leases : RefTable JsString AuthorityResolution
  opens : List OpenCall
  scopes : List TurnScope
  operations : List LeasedOperation

/-- A kernel without a turn. -/
def LeaseState.empty : LeaseState where
  leases _ := none
  opens := []
  scopes := []
  operations := []

/-- What can happen next to the leases of a kernel. -/
inductive LeaseLabel where
  | openTurnAuthority (context : AccessContext) (aborted : Bool)
  | loaded (call : ℕ) (resolution : AuthorityResolution)
  | loadFailed (call : ℕ)
  | close (scope : ℕ)
  | operate (context : AccessContext)

section Machine

variable [HostPlatform]

/-- The key of the lease the scope is for. -/
def TurnScope.key (scope : TurnScope) : JsString := turnAuthorityKey scope.context

/-- `held`: the lease a context may join, or the refusal of one that names its execution. -/
def held (leases : RefTable JsString AuthorityResolution) (context : AccessContext) :
    Except OpenError (Option (Counted AuthorityResolution)) :=
  match leases (turnAuthorityKey context), context.executionId with
  | some _, some executionId => .error (.executionInProgress executionId)
  | lease, _ => .ok lease

/-- `lease.refs += 1`, and the scope over it. -/
def LeaseState.scopeFor (s : LeaseState) (context : AccessContext)
    (resolution : AuthorityResolution) : LeaseState :=
  { s with
    leases := s.leases.acquire (turnAuthorityKey context)
    scopes := s.scopes ++ [{ context, resolution, closed := false }] }

/-- `#resolveAuthority`, up to the load an operation without a lease goes on to. -/
def LeaseState.resolveAuthority (s : LeaseState) (context : AccessContext) :
    Option AuthorityResolution :=
  s.leases.valueAt (turnAuthorityKey context)

/-- One event, where it can happen. -/
def leaseStep (s : LeaseState) : LeaseLabel → Option LeaseState
  | .openTurnAuthority context aborted =>
    if aborted then some { s with opens := s.opens ++ [.rejected .aborted] }
    else
      match held s.leases context with
      | .error e => some { s with opens := s.opens ++ [.rejected e] }
      | .ok none => some { s with opens := s.opens ++ [.loading context] }
      | .ok (some lease) =>
        some
          { s.scopeFor context lease.value with
            opens := s.opens ++ [.returned s.scopes.length] }
  | .loaded call resolution =>
    match s.opens[call]? with
    | some (.loading context) =>
      -- read again: another open may have installed its lease meanwhile
      match held s.leases context with
      | .error e => some { s with opens := s.opens.set call (.rejected e) }
      | .ok none =>
        let installed :=
          { s with leases := s.leases.install (turnAuthorityKey context) resolution }
        some
          { installed.scopeFor context resolution with
            opens := s.opens.set call (.returned s.scopes.length) }
      | .ok (some lease) =>
        some
          { s.scopeFor context lease.value with
            opens := s.opens.set call (.returned s.scopes.length) }
    | _ => none
  | .loadFailed call =>
    match s.opens[call]? with
    | some (.loading _) => some { s with opens := s.opens.set call (.rejected .loadFailed) }
    | _ => none
  | .close scope =>
    match s.scopes[scope]? with
    | none => none
    | some open_ =>
      -- only the first close counts
      if open_.closed then some s
      else
        some
          { s with
            scopes := s.scopes.set scope { open_ with closed := true }
            leases := s.leases.release open_.key }
  | .operate context =>
    some
      { s with
        operations :=
          s.operations ++ [{ context, answeredFrom := s.resolveAuthority context }] }

/-! ## What a step can do -/

/-- Whether this is a scope for the key that is not yet closed. -/
def TurnScope.holds (scope : TurnScope) (key : JsString) : Bool :=
  !scope.closed && scope.key == key

/-- How many returned scopes for the key are not yet closed. -/
def LeaseState.openScopes (s : LeaseState) (key : JsString) : ℕ :=
  s.scopes.countP (·.holds key)

/-- Every way a step changes the table, the scopes and the operations. -/
inductive LeaseMove (s s' : LeaseState) : Prop
  | quiet (leases : s'.leases = s.leases) (scopes : s'.scopes = s.scopes)
      (operations : s'.operations = s.operations)
  | join (context : AccessContext) (lease : Counted AuthorityResolution)
      (found : s.leases (turnAuthorityKey context) = some lease)
      (anonymous : context.executionId = none)
      (leases : s'.leases = s.leases.acquire (turnAuthorityKey context))
      (scopes : s'.scopes = s.scopes ++ [{ context, resolution := lease.value, closed := false }])
      (operations : s'.operations = s.operations)
  | install (context : AccessContext) (resolution : AuthorityResolution)
      (absent : s.leases (turnAuthorityKey context) = none)
      (leases : s'.leases = (s.leases.install (turnAuthorityKey context) resolution).acquire
        (turnAuthorityKey context))
      (scopes : s'.scopes = s.scopes ++ [{ context, resolution, closed := false }])
      (operations : s'.operations = s.operations)
  | close (i : ℕ) (scope : TurnScope) (at_ : s.scopes[i]? = some scope)
      (opened : scope.closed = false) (leases : s'.leases = s.leases.release scope.key)
      (scopes : s'.scopes = s.scopes.set i { scope with closed := true })
      (operations : s'.operations = s.operations)
  | operate (context : AccessContext) (leases : s'.leases = s.leases)
      (scopes : s'.scopes = s.scopes)
      (operations : s'.operations =
        s.operations ++ [{ context, answeredFrom := s.resolveAuthority context }])

theorem held_ok_some {leases : RefTable JsString AuthorityResolution} {context : AccessContext}
    {lease : Counted AuthorityResolution} (h : held leases context = .ok (some lease)) :
    leases (turnAuthorityKey context) = some lease ∧ context.executionId = none := by
  unfold held at h
  split at h
  · cases h
  · next hnot =>
      have hlease := Except.ok.inj h
      refine ⟨hlease, ?_⟩
      cases hid : context.executionId with
      | none => rfl
      | some id => exact absurd hid (hnot lease id hlease)

theorem held_ok_none {leases : RefTable JsString AuthorityResolution} {context : AccessContext}
    (h : held leases context = .ok none) : leases (turnAuthorityKey context) = none := by
  unfold held at h
  split at h
  · cases h
  · exact Except.ok.inj h

theorem leaseStep_moves {s s' : LeaseState} {label : LeaseLabel}
    (h : leaseStep s label = some s') : LeaseMove s s' := by
  cases label with
  | openTurnAuthority context aborted =>
      simp only [leaseStep] at h
      split at h
      · cases h
        exact .quiet rfl rfl rfl
      · split at h <;> cases h
        · exact .quiet rfl rfl rfl
        · exact .quiet rfl rfl rfl
        · next lease hheld =>
            obtain ⟨hfound, hid⟩ := held_ok_some hheld
            exact .join context lease hfound hid rfl rfl rfl
  | loaded call resolution =>
      simp only [leaseStep] at h
      split at h
      · next context _ =>
          split at h <;> cases h
          · exact .quiet rfl rfl rfl
          · next hheld => exact .install context resolution (held_ok_none hheld) rfl rfl rfl
          · next lease hheld =>
              obtain ⟨hfound, hid⟩ := held_ok_some hheld
              exact .join context lease hfound hid rfl rfl rfl
      · cases h
  | loadFailed call =>
      simp only [leaseStep] at h
      split at h <;> cases h
      exact .quiet rfl rfl rfl
  | close i =>
      simp only [leaseStep] at h
      split at h
      · cases h
      · next scope hscope =>
          split at h <;> cases h
          -- a second close of one scope does nothing
          · exact .quiet rfl rfl rfl
          · next hopen => exact .close i scope hscope (by simpa using hopen) rfl rfl rfl
  | operate context =>
      cases h
      exact .operate context rfl rfl rfl

/-! ## The invariant -/

/-- The table counts the open scopes, and answers each from the resolution it was given. -/
structure LeaseIntegrity (s : LeaseState) : Prop where
  counted : s.leases.Matches s.openScopes
  answered : ∀ scope ∈ s.scopes, scope.closed = false →
    s.leases.valueAt scope.key = some scope.resolution
  single : ∀ scope ∈ s.scopes, scope.closed = false → scope.context.executionId ≠ none →
    s.openScopes scope.key ≤ 1

theorem openScopes_append {s : LeaseState} {scope : TurnScope} (hopen : scope.closed = false) :
    (fun key => (s.scopes ++ [scope]).countP (·.holds key)) =
      RefTable.more s.openScopes scope.key := by
  funext key
  rw [List.countP_append, List.countP_singleton]
  unfold RefTable.more LeaseState.openScopes TurnScope.holds
  by_cases hkey : key = scope.key
  · simp [hkey, hopen]
  · rw [if_neg hkey, if_neg (by simp [hopen, Ne.symm hkey])]
    omega

theorem openScopes_set {s : LeaseState} {i : ℕ} {scope : TurnScope}
    (hat : s.scopes[i]? = some scope) (hopen : scope.closed = false) :
    s.openScopes = RefTable.more
      (fun key => (s.scopes.set i { scope with closed := true }).countP (·.holds key))
      scope.key := by
  funext key
  obtain ⟨hi, hget⟩ := List.getElem?_eq_some_iff.mp hat
  unfold RefTable.more LeaseState.openScopes
  dsimp only
  rw [List.countP_set hi, hget]
  have hclosed : TurnScope.holds { scope with closed := true } key = false := rfl
  rw [hclosed]
  by_cases hkey : key = scope.key
  · have hholds : scope.holds key = true := by
      unfold TurnScope.holds
      simp [hopen, hkey]
    have hpos : 0 < s.scopes.countP (·.holds key) :=
      List.countP_pos_iff.mpr ⟨scope, List.mem_of_getElem? hat, hholds⟩
    rw [if_pos hkey, if_pos hholds, if_neg (by decide)]
    omega
  · have hholds : scope.holds key = false := by
      unfold TurnScope.holds
      simp [hopen, Ne.symm hkey]
    rw [if_neg hkey, hholds]
    rfl

/-- A scope more for a key. -/
theorem integrity_append {s s' : LeaseState} {scope : TurnScope} (h : LeaseIntegrity s)
    (hopen : scope.closed = false) (hscopes : s'.scopes = s.scopes ++ [scope])
    (hcounted : s'.leases.Matches (RefTable.more s.openScopes scope.key))
    (hvalue : ∀ key, s.leases.valueAt key ≠ none → s'.leases.valueAt key = s.leases.valueAt key)
    (hscope : s'.leases.valueAt scope.key = some scope.resolution)
    (hsingle : scope.context.executionId = none ∨ s.openScopes scope.key = 0) :
    LeaseIntegrity s' := by
  have hcount : s'.openScopes = RefTable.more s.openScopes scope.key := by
    rw [← openScopes_append hopen]
    unfold LeaseState.openScopes
    rw [hscopes]
  refine ⟨by rw [hcount]; exact hcounted, fun other hmem hother => ?_, fun other hmem hother hid => ?_⟩
  · rw [hscopes] at hmem
    rcases List.mem_append.mp hmem with hmem | hmem
    · have hold := h.answered other hmem hother
      rw [hvalue other.key (by rw [hold]; exact Option.some_ne_none _), hold]
    · rw [List.mem_singleton.mp hmem]
      exact hscope
  · rw [hcount]
    by_cases hkey : other.key = scope.key
    · have hsame := (turnAuthorityKey_inj hkey).executionId
      rcases hsingle with hnone | hzero
      · exact absurd (hsame.trans hnone) hid
      · rw [hkey, RefTable.more_self, hzero]
    · rw [RefTable.more_other hkey]
      rw [hscopes] at hmem
      rcases List.mem_append.mp hmem with hmem | hmem
      · exact h.single other hmem hother hid
      · rw [List.mem_singleton.mp hmem] at hkey
        exact absurd rfl hkey

/-- **Every step keeps the lease table right.** -/
theorem leaseStep_integrity {s s' : LeaseState} {label : LeaseLabel} (h : LeaseIntegrity s)
    (hstep : leaseStep s label = some s') : LeaseIntegrity s' := by
  have hsame : s'.leases = s.leases → s'.scopes = s.scopes → LeaseIntegrity s' := by
    intro hleases hscopes
    have hcount : s'.openScopes = s.openScopes := by
      unfold LeaseState.openScopes
      rw [hscopes]
    constructor
    · rw [hcount, hleases]
      exact h.counted
    · rw [hscopes, hleases]
      exact h.answered
    · rw [hscopes, hcount]
      exact h.single
  cases leaseStep_moves hstep with
  | quiet hleases hscopes _ => exact hsame hleases hscopes
  | operate context hleases hscopes _ => exact hsame hleases hscopes
  | join context lease hfound hanonymous hleases hscopes _ =>
      apply integrity_append h rfl hscopes
      · rw [hleases]
        exact h.counted.acquire hfound
      · intro key _
        rw [hleases, RefTable.valueAt_acquire]
      · rw [hleases, RefTable.valueAt_acquire]
        show s.leases.valueAt (turnAuthorityKey context) = _
        rw [RefTable.valueAt, hfound]
        rfl
      · exact .inl hanonymous
  | install context resolution habsent hleases hscopes _ =>
      apply integrity_append h rfl hscopes
      · rw [hleases]
        exact h.counted.install habsent
      · intro key hkey
        rw [hleases, RefTable.valueAt_acquire, RefTable.valueAt_install, if_neg]
        intro heq
        rw [heq, RefTable.valueAt, habsent] at hkey
        exact hkey rfl
      · rw [hleases, RefTable.valueAt_acquire, RefTable.valueAt_install]
        exact if_pos rfl
      · exact .inr (h.counted.absent _ habsent)
  | close i scope hat hopen hleases hscopes _ =>
      have hcount : s.openScopes = RefTable.more s'.openScopes scope.key := by
        show _ = RefTable.more (fun key => s'.scopes.countP (·.holds key)) _
        rw [hscopes]
        exact openScopes_set hat hopen
      have hcounted : s'.leases.Matches s'.openScopes := by
        rw [hleases]
        exact h.counted.release hcount
      -- whatever is open after the close was open before it
      have hold : ∀ other ∈ s'.scopes, other.closed = false → other ∈ s.scopes := by
        intro other hmem hother
        rw [hscopes] at hmem
        rcases List.mem_or_eq_of_mem_set hmem with hmem | heq
        · exact hmem
        · rw [heq] at hother
          cases hother
      refine ⟨hcounted, fun other hmem hother => ?_, fun other hmem hother hid => ?_⟩
      · have hpos : 0 < s'.openScopes other.key := by
          apply List.countP_pos_iff.mpr
          refine ⟨other, hmem, ?_⟩
          unfold TurnScope.holds
          simp [hother]
        obtain ⟨entry, hentry⟩ := Option.isSome_iff_exists.mp (hcounted.isSome_iff.mpr hpos)
        have hvalue : s'.leases.valueAt other.key = some entry.value := by
          rw [RefTable.valueAt, hentry]
          rfl
        rw [hvalue]
        rw [hleases] at hvalue
        rw [← RefTable.valueAt_release_some hvalue]
        exact h.answered other (hold other hmem hother) hother
      · have hle := h.single other (hold other hmem hother) hother hid
        have hmore : s'.openScopes other.key ≤ s.openScopes other.key := by
          rw [hcount]
          unfold RefTable.more
          split <;> omega
        omega

theorem empty_integrity : LeaseIntegrity .empty where
  counted := ⟨fun _ _ h => (Option.some_ne_none _ h.symm).elim, fun _ _ => rfl⟩
  answered _ h := absurd h List.not_mem_nil
  single _ h := absurd h List.not_mem_nil

theorem leaseRun_integrity {s s' : LeaseState} {labels : List LeaseLabel} (h : LeaseIntegrity s)
    (hrun : run leaseStep s labels = some s') : LeaseIntegrity s' :=
  run_invariant (fun _ _ _ hs hstep => leaseStep_integrity hs hstep) h hrun

/-! ## One resolution for as long as a scope is open -/

/-- What was made under the scope's key since `s` was answered from the scope's resolution. -/
structure AnsweredSince (s : LeaseState) (scope : TurnScope) (s' : LeaseState) : Prop where
  operations : ∀ operation ∈ s'.operations.drop s.operations.length,
    turnAuthorityKey operation.context = scope.key →
      operation.answeredFrom = some scope.resolution
  scopes : ∀ other ∈ s'.scopes.drop s.scopes.length, other.key = scope.key →
    other.resolution = scope.resolution

/-- A later state of a run, seen from a scope that was open in an earlier one. -/
structure Since (s : LeaseState) (i : ℕ) (scope : TurnScope) (s' : LeaseState) : Prop where
  integrity : LeaseIntegrity s'
  operations : s.operations.length ≤ s'.operations.length
  scopes : s.scopes.length ≤ s'.scopes.length
  answered : s'.scopes[i]? = some scope → AnsweredSince s scope s'

/-- A scope more, given out while `scope` is open. -/
theorem Since.append {s s' s'' : LeaseState} {i : ℕ} {scope other : TurnScope}
    (h : Since s i scope s') (hi : i < s.scopes.length) (hopen : scope.closed = false)
    (hintegrity : LeaseIntegrity s'') (hscopes : s''.scopes = s'.scopes ++ [other])
    (hother : other.closed = false) (hoperations : s''.operations = s'.operations) :
    Since s i scope s'' := by
  have hlen := h.scopes
  refine ⟨hintegrity, by rw [hoperations]; exact h.operations, ?_, fun hat => ?_⟩
  · rw [hscopes, List.length_append]
    omega
  · have hmem := List.mem_of_getElem? hat
    rw [hscopes, List.getElem?_append_left (by omega)] at hat
    obtain ⟨hoperations', hscopes'⟩ := h.answered hat
    refine ⟨by rw [hoperations]; exact hoperations', fun o ho hkey => ?_⟩
    rw [hscopes, List.drop_append_of_le_length hlen] at ho
    rcases List.mem_append.mp ho with ho | ho
    · exact hscopes' o ho hkey
    · rw [List.mem_singleton.mp ho] at hkey ⊢
      have hnew := hintegrity.answered other
        (by rw [hscopes]; exact List.mem_append_right _ (List.mem_singleton.mpr rfl)) hother
      have hold := hintegrity.answered scope hmem hopen
      rw [hkey, hold] at hnew
      exact (Option.some.inj hnew).symm

theorem leaseStep_since {s s' s'' : LeaseState} {i : ℕ} {scope : TurnScope} {label : LeaseLabel}
    (hi : i < s.scopes.length) (hopen : scope.closed = false) (h : Since s i scope s')
    (hstep : leaseStep s' label = some s'') : Since s i scope s'' := by
  have hintegrity := leaseStep_integrity h.integrity hstep
  have hlen := h.scopes
  cases leaseStep_moves hstep with
  | quiet _ hscopes hoperations =>
      refine ⟨hintegrity, by rw [hoperations]; exact h.operations, by rw [hscopes]; exact hlen,
        fun hat => ?_⟩
      rw [hscopes] at hat
      obtain ⟨hoperations', hscopes'⟩ := h.answered hat
      exact ⟨by rw [hoperations]; exact hoperations', by rw [hscopes]; exact hscopes'⟩
  | join context lease _ _ _ hscopes hoperations =>
      exact h.append hi hopen hintegrity hscopes rfl hoperations
  | install context resolution _ _ hscopes hoperations =>
      exact h.append hi hopen hintegrity hscopes rfl hoperations
  | close j other hat' hother _ hscopes hoperations =>
      refine ⟨hintegrity, by rw [hoperations]; exact h.operations, ?_, fun hat => ?_⟩
      · rw [hscopes, List.length_set]
        exact hlen
      · have hj : j ≠ i := by
          intro hji
          rw [hscopes, hji, List.getElem?_set_self (by omega)] at hat
          rw [← Option.some.inj hat] at hopen
          cases hopen
        rw [hscopes, List.getElem?_set_ne hj] at hat
        obtain ⟨hoperations', hscopes'⟩ := h.answered hat
        refine ⟨by rw [hoperations]; exact hoperations', fun o ho hkey => ?_⟩
        -- the scope that closed was given out with a resolution it keeps
        rw [hscopes, List.drop_set] at ho
        split at ho
        · exact hscopes' o ho hkey
        · next hdrop =>
            rcases List.mem_or_eq_of_mem_set ho with ho | rfl
            · exact hscopes' o ho hkey
            · apply hscopes' other _ hkey
              apply List.mem_of_getElem? (i := j - s.scopes.length)
              rw [List.getElem?_drop, ← hat']
              congr 1
              omega
  | operate context _ hscopes hoperations =>
      have hlen' := h.operations
      refine ⟨hintegrity, ?_, by rw [hscopes]; exact hlen, fun hat => ?_⟩
      · rw [hoperations, List.length_append]
        omega
      · rw [hscopes] at hat
        obtain ⟨hoperations', hscopes'⟩ := h.answered hat
        refine ⟨fun o ho hkey => ?_, by rw [hscopes]; exact hscopes'⟩
        rw [hoperations, List.drop_append_of_le_length hlen'] at ho
        rcases List.mem_append.mp ho with ho | ho
        · exact hoperations' o ho hkey
        · rw [List.mem_singleton.mp ho] at hkey ⊢
          show s'.leases.valueAt (turnAuthorityKey context) = _
          rw [hkey]
          exact h.integrity.answered scope (List.mem_of_getElem? hat) hopen

/-- A second open of a turn that names its execution rejects, at either lookup, and leaves the
table as it is. -/
theorem held_executionInProgress {s : LeaseState} {context : AccessContext} {executionId : JsString}
    (h : LeaseIntegrity s) (hid : context.executionId = some executionId)
    (hpos : 0 < s.openScopes (turnAuthorityKey context)) :
    held s.leases context = .error (.executionInProgress executionId) := by
  obtain ⟨lease, hlease⟩ := Option.isSome_iff_exists.mp (h.counted.isSome_iff.mpr hpos)
  unfold held
  rw [hlease, hid]

/-- What holds of the lease table whatever has happened so far. -/
structure LeasesInOrder (s : LeaseState) : Prop where
  entries : ∀ key, (s.leases key).isSome ↔
    ∃ scope ∈ s.scopes, scope.closed = false ∧ scope.key = key
  refs : ∀ key lease, s.leases key = some lease → lease.refs = s.openScopes key
  answered : ∀ scope ∈ s.scopes, scope.closed = false →
    ∀ context, turnAuthorityKey context = scope.key →
      s.resolveAuthority context = some scope.resolution
  throughout : ∀ (i : ℕ) (scope : TurnScope), s.scopes[i]? = some scope → scope.closed = false →
    ∀ later s', run leaseStep s later = some s' → s'.scopes[i]? = some scope →
      AnsweredSince s scope s'
  exclusive : ∀ context executionId, context.executionId = some executionId →
    s.openScopes (turnAuthorityKey context) ≤ 1
  refused : ∀ context executionId, context.executionId = some executionId →
    0 < s.openScopes (turnAuthorityKey context) →
      leaseStep s (.openTurnAuthority context false) =
        some { s with opens := s.opens ++ [.rejected (.executionInProgress executionId)] } ∧
      ∀ (call : ℕ) resolution, s.opens[call]? = some (.loading context) →
        leaseStep s (.loaded call resolution) =
          some { s with
            opens := s.opens.set call (.rejected (.executionInProgress executionId)) }

/-- **Turn lease integrity**, at every state of every run. -/
theorem turn_lease_integrity {labels : List LeaseLabel} {s : LeaseState}
    (hrun : run leaseStep .empty labels = some s) :
    LeasesInOrder s ∧ ∀ a b, turnAuthorityKey a = turnAuthorityKey b → SameTurn a b := by
  have h := leaseRun_integrity empty_integrity hrun
  have hholds : ∀ key, 0 < s.openScopes key ↔
      ∃ scope ∈ s.scopes, scope.closed = false ∧ scope.key = key := by
    intro key
    unfold LeaseState.openScopes TurnScope.holds
    rw [List.countP_pos_iff]
    simp
  refine ⟨⟨?_, ?_, ?_, ?_, ?_, ?_⟩, fun _ _ => turnAuthorityKey_inj⟩
  · intro key
    rw [h.counted.isSome_iff]
    exact hholds key
  · intro key lease hlease
    exact (h.counted.refs key lease hlease).1
  · intro scope hmem hopen context hkey
    show s.leases.valueAt _ = _
    rw [hkey]
    exact h.answered scope hmem hopen
  · intro i scope hat hopen later s' hlater hat'
    have hi := (List.getElem?_eq_some_iff.mp hat).1
    -- nothing has happened since this state
    have hstart : Since s i scope s := by
      refine ⟨h, le_refl _, le_refl _, fun _ => ⟨fun o ho => ?_, fun o ho => ?_⟩⟩
      · rw [List.drop_length] at ho
        cases ho
      · rw [List.drop_length] at ho
        cases ho
    have hsince : Since s i scope s' :=
      run_invariant (fun _ _ _ ht hstep => leaseStep_since hi hopen ht hstep) hstart hlater
    exact hsince.answered hat'
  · intro context executionId hid
    -- an open scope of the key holds the execution, so it is the only one
    by_cases hpos : 0 < s.openScopes (turnAuthorityKey context)
    · obtain ⟨scope, hmem, hopen, hkey⟩ := (hholds _).mp hpos
      have hsame := (turnAuthorityKey_inj hkey).executionId
      rw [← hkey]
      apply h.single scope hmem hopen
      rw [show scope.context.executionId = some executionId from hsame.trans hid]
      exact Option.some_ne_none _
    · omega
  · intro context executionId hid hpos
    have hheld := held_executionInProgress h hid hpos
    refine ⟨?_, fun call resolution hcall => ?_⟩
    · simp only [leaseStep, hheld]
      rfl
    · simp only [leaseStep, hcall, hheld]

end Machine

/-! ## A run to evaluate on -/

namespace Sample

/-- A worker acting for a human. -/
def context : AccessContext where
  namespaceId := "ns"
  actor := .agent "worker"
  authority := .agent "lead"
  owner := .human "owner"
  purpose := "work"
  traceId := "trace"
  executionId := none
  enabledToolNamespaces := ["files"]
  now := "2026-03-01T00:00:00Z"

/-- Two opens of one turn race, and one of the two scopes is closed twice. -/
def labels : List LeaseLabel :=
  [.openTurnAuthority context false, .openTurnAuthority context false,
    .loaded 1 (.unavailable .grantSourceFailed none),
    .loaded 0 (.unavailable .grantLimitExceeded none), .operate context, .close 0, .close 0]

end Sample

open scoped SharedOS.Foundation.Reference in
theorem turn_lease_integrity_race :
    ∃ s, run leaseStep .empty Sample.labels = some s ∧ LeasesInOrder s ∧
      ∀ a b, turnAuthorityKey a = turnAuthorityKey b → SameTurn a b := by
  have hrun : (run leaseStep .empty Sample.labels).isSome := by decide +kernel
  obtain ⟨s, hs⟩ := Option.isSome_iff_exists.mp hrun
  exact ⟨s, hs, turn_lease_integrity hs⟩

end SharedOS.Kernel
