/-
SharedOS.Runtime.TurnScopes — the turns of one kernel, and the leases they hold.

Any number of executor turns run over one lease table. A turn opens its authority once, and keeps
the promise as well as the handle: what the turn body was handed it closes itself, and what it was
not handed is closed by a reaction to the promise, however late that settles. So a lease is given
back on every path out, once, and the table is empty when the last turn has settled.
-/
import SharedOS.Foundation.Updates
import SharedOS.Kernel.TurnLease
import SharedOS.Runtime.EventLog

namespace SharedOS.Runtime

open SharedOS.Foundation SharedOS.Contracts SharedOS.Core SharedOS.Kernel

/-! ## The machine -/

/-- One `execute`, with what its turn keeps of `openTurnAuthority`. -/
structure OpenedTurn where
  turn : Turn
  state : TurnState
  /-- `opening`: the call of `openTurnAuthority` whose promise this is. -/
  opening : Option ℕ
  /-- `authority`: the scope the turn body was handed. -/
  authority : Option ℕ
  /-- The reaction to `opening` that `finally` leaves behind has run. -/
  reacted : Bool

/-- The turns begun over one kernel, and its lease table. -/
structure KernelTurns where
  lease : LeaseState
  turns : List OpenedTurn

/-- Before any turn. -/
def KernelTurns.empty : KernelTurns where
  lease := .empty
  turns := []

section Machine

/-- The scope an open came to. -/
def openedScope : OpenCall → Option ℕ
  | .returned scope => some scope
  | .loading _ | .rejected _ => none

/-- What the turn body's await on `opening` comes to. Of a rejection it reads only whether the
execution is still running. -/
def openingAnswer (thrown : Thrown) : OpenCall → Option (Except (Option Thrown) Unit)
  | .loading _ => none
  | .returned _ => some (.ok ())
  | .rejected (.executionInProgress _) => some (.error none)
  | .rejected .aborted | .rejected .loadFailed => some (.error (some thrown))

variable [HostPlatform]

/-- What may happen next. -/
inductive TurnsLabel where
  /-- A caller executes a request. -/
  | execute (turn : Turn)
  /-- The turn body runs up to its first await. The clock it reads on the way may abort the turn. -/
  | starts (t : ℕ) (parent : Option Thrown) (now : JsString) (aborted : Bool)
  /-- The turn body's await on `opening` is over. -/
  | opened (t : ℕ) (thrown : Thrown)
  /-- Anything else that happens in the turn. -/
  | turn (t : ℕ) (label : TurnLabel)
  /-- The reaction to `opening` of a turn that has ended. -/
  | openingSettled (t : ℕ)
  /-- A load of the kernel's is answered, or an operation looks its lease up. -/
  | kernel (label : LeaseLabel)

/-- A turn no part of which has run. -/
def OpenedTurn.execute (turn : Turn) : OpenedTurn where
  turn
  state := .initial turn
  opening := none
  authority := none
  reacted := false

/-- The call behind `opening`, as it stands. -/
def OpenedTurn.openCall (o : OpenedTurn) (lease : LeaseState) : Option OpenCall :=
  o.opening.bind fun call => lease.opens[call]?

/-- `scope.close()`, where there is one. -/
def closeScope (lease : LeaseState) : Option ℕ → Option LeaseState
  | none => some lease
  | some scope => leaseStep lease (.close scope)

/-- The turn goes on. One that ends here runs `finally`, which closes the handle it has. -/
def KernelTurns.goesOn (s : KernelTurns) (t : ℕ) (o : OpenedTurn) (state : TurnState) :
    Option KernelTurns :=
  let turns := s.turns.set t { o with state }
  if o.state.phase ≠ .closed ∧ state.phase = .closed then
    (closeScope s.lease o.authority).map fun lease => { lease, turns }
  else some { s with turns }

/-- One step. -/
def turnsStep (s : KernelTurns) : TurnsLabel → Option KernelTurns
  | .execute turn => some { s with turns := s.turns ++ [.execute turn] }
  | .starts t parent now aborted =>
    s.turns[t]?.bind fun o =>
      (executorStep o.turn o.state (.start parent)).bind fun state =>
        if state.phase = .opening then
          (leaseStep s.lease
            (.openTurnAuthority (contextAt o.turn.executionContext now) aborted)).map fun lease =>
              { lease, turns := s.turns.set t { o with state, opening := s.lease.opens.length } }
        else s.goesOn t o state
  | .opened t thrown =>
    s.turns[t]?.bind fun o =>
      (o.openCall s.lease).bind fun call =>
        (openingAnswer thrown call).bind fun answer =>
          (executorStep o.turn o.state (.opened answer)).bind fun state =>
            s.goesOn t { o with authority := openedScope call } state
  | .turn _ (.start _) | .turn _ (.opened _) => none
  | .turn t label =>
    s.turns[t]?.bind fun o =>
      (executorStep o.turn o.state label).bind fun state => s.goesOn t o state
  | .openingSettled t =>
    s.turns[t]?.bind fun o =>
      if o.state.phase ≠ .closed then none
      else
        match o.openCall s.lease with
        | none | some (.loading _) => none
        | some call =>
          (closeScope s.lease (openedScope call)).map fun lease =>
            { lease, turns := s.turns.set t { o with reacted := true } }
  | .kernel (.openTurnAuthority ..) | .kernel (.close _) => none
  | .kernel label => (leaseStep s.lease label).map fun lease => { s with lease }

/-- The turn a step is taken in. -/
def TurnsLabel.turnOf : TurnsLabel → Option ℕ
  | .starts t .. | .opened t _ | .turn t _ | .openingSettled t => some t
  | .execute _ | .kernel _ => none

end Machine

/-! ## The lease table, where every context names its execution -/

/-- The scope is closed. -/
def ScopeClosed (lease : LeaseState) (i : ℕ) : Prop :=
  ∃ scope, lease.scopes[i]? = some scope ∧ scope.closed = true

/-- Every scope was returned to one call, and every context names its execution. -/
structure NamedLeases [HostPlatform] (lease : LeaseState) : Prop where
  integrity : LeaseIntegrity lease
  loading : ∀ (k : ℕ) context, lease.opens[k]? = some (.loading context) →
    context.executionId ≠ none
  named : ∀ scope ∈ lease.scopes, scope.context.executionId ≠ none
  returned : ∀ i, i < lease.scopes.length → ∃ k : ℕ, lease.opens[k]? = some (.returned i)
  placed : ∀ k i : ℕ, lease.opens[k]? = some (.returned i) → i < lease.scopes.length
  once : ∀ k k' i : ℕ, lease.opens[k]? = some (.returned i) → lease.opens[k']? = some (.returned i) →
    k = k'

/-- What has settled stays so: a call that came back, and a scope that is closed. -/
structure SettledSince (lease lease' : LeaseState) : Prop where
  opens : ∀ (k : ℕ) call, lease.opens[k]? = some call → (∀ context, call ≠ .loading context) →
    lease'.opens[k]? = some call
  closed : ∀ i, ScopeClosed lease i → ScopeClosed lease' i

section Leases

variable [HostPlatform] {s s' : LeaseState} {label : LeaseLabel}

omit [HostPlatform] in
theorem SettledSince.refl (lease : LeaseState) : SettledSince lease lease :=
  ⟨fun _ _ h _ => h, fun _ h => h⟩

/-- What a step does where every context names its execution: nobody joins a lease. -/
inductive NamedMove (s : LeaseState) : LeaseLabel → LeaseState → Prop
  | asked {context : AccessContext} {aborted : Bool} {call : OpenCall}
      (hcall : openedScope call = none) (hloading : ∀ c, call = .loading c → c = context) :
      NamedMove s (.openTurnAuthority context aborted) { s with opens := s.opens ++ [call] }
  | rejected {label : LeaseLabel} {k : ℕ} {context : AccessContext} {error : OpenError}
      (hlabel : label = .loadFailed k ∨ ∃ resolution, label = .loaded k resolution)
      (hk : s.opens[k]? = some (.loading context)) :
      NamedMove s label { s with opens := s.opens.set k (.rejected error) }
  | installed {k : ℕ} {context : AccessContext} {resolution : AuthorityResolution}
      (hk : s.opens[k]? = some (.loading context))
      (habsent : s.leases (turnAuthorityKey context) = none) :
      NamedMove s (.loaded k resolution)
        { s with
          leases := (s.leases.install (turnAuthorityKey context) resolution).acquire
            (turnAuthorityKey context)
          scopes := s.scopes ++ [{ context, resolution, closed := false }]
          opens := s.opens.set k (.returned s.scopes.length) }
  | closes {i : ℕ} {scope : TurnScope} (hi : s.scopes[i]? = some scope)
      (hopen : scope.closed = false) :
      NamedMove s (.close i)
        { s with
          scopes := s.scopes.set i { scope with closed := true }
          leases := s.leases.release scope.key }
  | closedBefore {i : ℕ} (h : ScopeClosed s i) : NamedMove s (.close i) s
  | operated {context : AccessContext} :
      NamedMove s (.operate context)
        { s with operations :=
          s.operations ++ [{ context, answeredFrom := s.resolveAuthority context }] }

/-- A context that names its execution joins no lease. -/
theorem held_named {context : AccessContext} (hnamed : context.executionId ≠ none)
    (lease : Counted AuthorityResolution) : held s.leases context ≠ .ok (some lease) :=
  fun h => hnamed (held_ok_some h).2

theorem leaseStep_named (h : NamedLeases s)
    (hopens : ∀ context aborted, label = .openTurnAuthority context aborted →
      context.executionId ≠ none) (hstep : leaseStep s label = some s') : NamedMove s label s' := by
  cases label with
  | openTurnAuthority context aborted =>
      simp only [leaseStep] at hstep
      split at hstep
      · cases hstep
        exact .asked rfl fun c hc => by cases hc
      · split at hstep <;> cases hstep
        · exact .asked rfl fun c hc => by cases hc
        · exact .asked rfl fun c hc => by cases hc; rfl
        · next lease hheld => exact absurd hheld (held_named (hopens context aborted rfl) lease)
  | loaded call resolution =>
      simp only [leaseStep] at hstep
      split at hstep
      · next context hcall =>
          split at hstep <;> cases hstep
          · exact .rejected (.inr ⟨resolution, rfl⟩) hcall
          · next hheld => exact .installed hcall (held_ok_none hheld)
          · next lease hheld => exact absurd hheld (held_named (h.loading _ _ hcall) lease)
      · cases hstep
  | loadFailed call =>
      simp only [leaseStep] at hstep
      split at hstep <;> cases hstep
      next hcall => exact .rejected (.inl rfl) hcall
  | close i =>
      simp only [leaseStep] at hstep
      split at hstep
      · cases hstep
      · next scope hscope =>
          split at hstep <;> cases hstep
          · next hclosed => exact .closedBefore ⟨scope, hscope, hclosed⟩
          · next hopen => exact .closes hscope (by simpa using hopen)
  | operate context =>
      cases hstep
      exact .operated

omit [HostPlatform] in
/-- A call that was still loading settles, and no other call moves. -/
theorem opens_set {k j : ℕ} {context : AccessContext} {call call' : OpenCall}
    (hk : s.opens[k]? = some (.loading context)) (hj : s.opens[j]? = some call)
    (hsettled : ∀ context, call ≠ .loading context) : (s.opens.set k call')[j]? = some call := by
  have hne : k ≠ j := by
    rintro rfl
    rw [hk] at hj
    exact hsettled context (Option.some.inj hj).symm
  rw [List.getElem?_set_ne hne]
  exact hj

theorem NamedMove.settledSince (h : NamedMove s label s') : SettledSince s s' := by
  cases h with
  | asked hcall hloading =>
      refine ⟨fun j call hj _ => ?_, fun _ hi => hi⟩
      rw [List.getElem?_append_left (List.getElem?_eq_some_iff.mp hj).1]
      exact hj
  | rejected _ hk => exact ⟨fun j call hj hsettled => opens_set hk hj hsettled, fun _ hi => hi⟩
  | installed hk habsent =>
      refine ⟨fun j call hj hsettled => opens_set hk hj hsettled, fun i ⟨scope, hi, hclosed⟩ => ?_⟩
      refine ⟨scope, ?_, hclosed⟩
      rw [List.getElem?_append_left (List.getElem?_eq_some_iff.mp hi).1]
      exact hi
  | @closes i scope hi hopen =>
      refine ⟨fun _ _ hj _ => hj, fun j ⟨other, hj, hclosed⟩ => ?_⟩
      by_cases hij : i = j
      · subst hij
        exact ⟨_, List.getElem?_set_self (List.getElem?_eq_some_iff.mp hi).1, rfl⟩
      · exact ⟨other, (List.getElem?_set_ne hij).trans hj, hclosed⟩
  | closedBefore _ => exact .refl s
  | operated => exact ⟨fun _ _ hj _ => hj, fun _ hi => hi⟩

/-- A step that returns no scope keeps each returned to its one call. -/
theorem NamedLeases.same (h : NamedLeases s) (hintegrity : LeaseIntegrity s')
    (hloading : ∀ (k : ℕ) context, s'.opens[k]? = some (.loading context) →
      context.executionId ≠ none)
    (hreturned : ∀ k i : ℕ, s'.opens[k]? = some (.returned i) ↔ s.opens[k]? = some (.returned i))
    (hlength : s'.scopes.length = s.scopes.length)
    (hnamed : ∀ scope ∈ s'.scopes, scope.context.executionId ≠ none) : NamedLeases s' where
  integrity := hintegrity
  loading := hloading
  named := hnamed
  returned i hi := by
    obtain ⟨k, hk⟩ := h.returned i (hlength ▸ hi)
    exact ⟨k, (hreturned k i).mpr hk⟩
  placed k i hk := hlength ▸ h.placed k i ((hreturned k i).mp hk)
  once k k' i hk hk' := h.once k k' i ((hreturned k i).mp hk) ((hreturned k' i).mp hk')

theorem NamedMove.namedLeases (hmove : NamedMove s label s') (h : NamedLeases s)
    (hopens : ∀ context aborted, label = .openTurnAuthority context aborted →
      context.executionId ≠ none) (hintegrity : LeaseIntegrity s') : NamedLeases s' := by
  cases hmove with
  | @asked context aborted call hcall hloading =>
      refine h.same hintegrity (fun k c hk => ?_) (fun k i => ⟨fun hk => ?_, fun hk => ?_⟩) rfl
        h.named
      · rcases getElem?_append_singleton hk with hk | ⟨-, hk⟩
        · exact h.loading k c hk
        · rw [hloading c hk.symm]
          exact hopens context aborted rfl
      · rcases getElem?_append_singleton hk with hk | ⟨-, hk⟩
        · exact hk
        · rw [← hk] at hcall
          cases hcall
      · rw [List.getElem?_append_left (List.getElem?_eq_some_iff.mp hk).1]
        exact hk
  | @rejected _ k context error _ hk =>
      refine h.same hintegrity (fun j c hj => ?_) (fun j i => ⟨fun hj => ?_, fun hj => ?_⟩) rfl
        h.named
      · rcases getElem?_set_cases hj with ⟨-, hj⟩ | ⟨-, hj⟩
        · cases hj
        · exact h.loading j c hj
      · rcases getElem?_set_cases hj with ⟨-, hj⟩ | ⟨-, hj⟩
        · cases hj
        · exact hj
      · exact opens_set hk hj nofun
  | @installed k context resolution hk habsent =>
      have hold : ∀ j i : ℕ, (s.opens.set k (.returned s.scopes.length))[j]? = some (.returned i) →
          j = k ∧ i = s.scopes.length ∨ s.opens[j]? = some (.returned i) := by
        intro j i hj
        rcases getElem?_set_cases hj with ⟨hjk, hj⟩ | ⟨-, hj⟩
        · exact .inl ⟨hjk, by cases hj; rfl⟩
        · exact .inr hj
      refine ⟨hintegrity, fun j c hj => ?_, fun scope hscope => ?_, fun i hi => ?_,
        fun j i hj => ?_, fun j j' i hj hj' => ?_⟩
      · rcases getElem?_set_cases hj with ⟨-, hj⟩ | ⟨-, hj⟩
        · cases hj
        · exact h.loading j c hj
      · rcases List.mem_append.mp hscope with hscope | hscope
        · exact h.named scope hscope
        · rw [List.mem_singleton.mp hscope]
          exact h.loading k context hk
      · rw [List.length_append, List.length_singleton] at hi
        by_cases hlast : i = s.scopes.length
        · subst hlast
          exact ⟨k, List.getElem?_set_self (List.getElem?_eq_some_iff.mp hk).1⟩
        · obtain ⟨j, hj⟩ := h.returned i (by omega)
          exact ⟨j, opens_set hk hj nofun⟩
      · rw [List.length_append, List.length_singleton]
        rcases hold j i hj with ⟨-, hi⟩ | hj
        · omega
        · exact Nat.lt_succ_of_lt (h.placed j i hj)
      · rcases hold j i hj with ⟨hjk, hi⟩ | hj
        · rcases hold j' i hj' with ⟨hjk', -⟩ | hj'
          · rw [hjk, hjk']
          · have := h.placed j' i hj'
            omega
        · rcases hold j' i hj' with ⟨hjk', hi⟩ | hj'
          · have := h.placed j i hj
            omega
          · exact h.once j j' i hj hj'
  | @closes i scope hi hopen =>
      refine h.same hintegrity h.loading (fun _ _ => Iff.rfl) (List.length_set ..)
        fun other hother => ?_
      rcases List.mem_or_eq_of_mem_set hother with hother | rfl
      · exact h.named other hother
      · exact h.named scope (List.mem_of_getElem? hi)
  | closedBefore _ => exact h
  | operated => exact h.same hintegrity h.loading (fun _ _ => Iff.rfl) rfl h.named

/-- **Every step keeps each scope with its one call.** -/
theorem leaseStep_namedLeases (h : NamedLeases s)
    (hopens : ∀ context aborted, label = .openTurnAuthority context aborted →
      context.executionId ≠ none) (hstep : leaseStep s label = some s') : NamedLeases s' :=
  (leaseStep_named h hopens hstep).namedLeases h hopens (leaseStep_integrity h.integrity hstep)

theorem namedLeases_empty : NamedLeases LeaseState.empty where
  integrity := empty_integrity
  loading _ _ h := by cases h
  named _ h := absurd h List.not_mem_nil
  returned _ h := absurd h (Nat.not_lt_zero _)
  placed _ _ h := by cases h
  once _ _ _ h := by cases h

/-- The scope is as it was, with the same entry behind it. -/
structure LeaseKept (s s' : LeaseState) (scope : TurnScope) (i : ℕ) : Prop where
  stands : s'.scopes[i]? = some scope
  entry : s'.leases scope.key = s.leases scope.key

/-- **Only its own close touches an open scope.** -/
theorem NamedMove.leaseKept (hmove : NamedMove s label s') (h : NamedLeases s) {i : ℕ}
    {scope : TurnScope} (hi : s.scopes[i]? = some scope) (hopen : scope.closed = false)
    (hother : label ≠ .close i) : LeaseKept s s' scope i := by
  have hmem : scope ∈ s.scopes := List.mem_of_getElem? hi
  cases hmove with
  | asked => exact ⟨hi, rfl⟩
  | rejected => exact ⟨hi, rfl⟩
  | @installed k context resolution hk habsent =>
      have hkey : scope.key ≠ turnAuthorityKey context := by
        intro heq
        have hanswered := h.integrity.answered scope hmem hopen
        rw [heq, RefTable.valueAt, habsent] at hanswered
        cases hanswered
      refine ⟨?_, ?_⟩
      · rw [List.getElem?_append_left (List.getElem?_eq_some_iff.mp hi).1]
        exact hi
      · show ((s.leases.install _ resolution).acquire _) scope.key = _
        rw [RefTable.acquire_other hkey, RefTable.install_other hkey]
  | @closes j other hj hjopen =>
      have hji : j ≠ i := fun heq => hother (by rw [heq])
      have hstill : (s.scopes.set j { other with closed := true })[i]? = some scope :=
        (List.getElem?_set_ne hji).trans hi
      refine ⟨hstill, RefTable.release_other fun heq => ?_⟩
      -- two open scopes under one key, where there is at most one
      have hpos : 0 < (s.scopes.set j { other with closed := true }).countP (·.holds scope.key) := by
        refine List.countP_pos_iff.mpr ⟨scope, List.mem_of_getElem? hstill, ?_⟩
        simp [TurnScope.holds, hopen]
      have hcount := congrFun (openScopes_set hj hjopen) scope.key
      rw [heq, RefTable.more_self, ← heq] at hcount
      have hsingle := h.integrity.single scope hmem hopen (h.named scope hmem)
      omega
  | closedBefore => exact ⟨hi, rfl⟩
  | operated => exact ⟨hi, rfl⟩

/-- What closing a handle leaves. -/
structure Closes (s : LeaseState) (handle : Option ℕ) (s' : LeaseState) : Prop where
  named : NamedLeases s'
  since : SettledSince s s'
  opens : s'.opens = s.opens
  closed : ∀ i, handle = some i → ScopeClosed s' i
  kept : ∀ i scope, handle ≠ some i → s.scopes[i]? = some scope → scope.closed = false →
    LeaseKept s s' scope i

theorem closeScope_closes (h : NamedLeases s) {handle : Option ℕ}
    (hstep : closeScope s handle = some s') : Closes s handle s' := by
  cases handle with
  | none =>
      cases hstep
      exact ⟨h, .refl s, rfl, nofun, fun _ _ _ hi _ => ⟨hi, rfl⟩⟩
  | some i =>
      have hnoOpen : ∀ context aborted, LeaseLabel.close i = .openTurnAuthority context aborted →
          context.executionId ≠ none := nofun
      have hmove := leaseStep_named h hnoOpen hstep
      refine ⟨leaseStep_namedLeases h hnoOpen hstep, hmove.settledSince, ?_, ?_,
        fun j scope hj hat hopen => hmove.leaseKept h hat hopen fun heq => ?_⟩
      · cases hmove with
        | rejected hlabel => rcases hlabel with hlabel | ⟨_, hlabel⟩ <;> cases hlabel
        | closes => rfl
        | closedBefore => rfl
      · intro j hj
        cases hj
        cases hmove with
        | rejected hlabel => rcases hlabel with hlabel | ⟨_, hlabel⟩ <;> cases hlabel
        | closes hi hopen =>
            exact ⟨_, List.getElem?_set_self (List.getElem?_eq_some_iff.mp hi).1, rfl⟩
        | closedBefore hclosed => exact hclosed
      · cases heq
        exact hj rfl

end Leases

/-! ## The invariant -/

/-- The open call came back. -/
def HasSettled (call : OpenCall) : Prop := ∀ context, call ≠ .loading context

section Turns

variable [HostPlatform] {s s' : KernelTurns} {t i : ℕ} {o o' : OpenedTurn} {label : TurnsLabel}

/-- The turn's open was answered with this scope. -/
def OpenedTurn.Obtained (o : OpenedTurn) (lease : LeaseState) (i : ℕ) : Prop :=
  o.openCall lease = some (.returned i)

/-- What one turn may rely on. -/
structure OpenedTurn.Holds (lease : LeaseState) (o : OpenedTurn) : Prop where
  fresh : o.state.phase = .fresh → o.opening = none
  handed : ∀ i, o.authority = some i → o.Obtained lease i
  closed : o.state.phase = .closed → ∀ i, o.authority = some i → ScopeClosed lease i
  reacted : o.reacted = true → o.state.phase = .closed ∧ ∃ call, o.openCall lease = some call ∧
    HasSettled call ∧ ∀ i, openedScope call = some i → ScopeClosed lease i

/-- **The invariant of the turns over one kernel.** -/
structure TurnsInOrder (s : KernelTurns) : Prop where
  leases : NamedLeases s.lease
  /-- Each open is one turn's. -/
  owned : (s.turns.filterMap OpenedTurn.opening).Perm (List.range s.lease.opens.length)
  holds : ∀ (t : ℕ) o, s.turns[t]? = some o → o.Holds s.lease

omit [HostPlatform] in
theorem OpenedTurn.openCall_since {lease lease' : LeaseState} (h : SettledSince lease lease')
    {call : OpenCall} (hcall : o.openCall lease = some call) (hsettled : HasSettled call) :
    o.openCall lease' = some call := by
  obtain ⟨k, hk, hat⟩ := Option.bind_eq_some_iff.mp hcall
  exact Option.bind_eq_some_iff.mpr ⟨k, hk, h.opens k call hat hsettled⟩

omit [HostPlatform] in
theorem OpenedTurn.Holds.since {lease lease' : LeaseState} (h : o.Holds lease)
    (hsince : SettledSince lease lease') : o.Holds lease' where
  fresh := h.fresh
  handed i hi := openCall_since hsince (h.handed i hi) nofun
  closed hphase i hi := hsince.closed i (h.closed hphase i hi)
  reacted hreacted := by
    obtain ⟨hphase, call, hcall, hsettled, hclosed⟩ := h.reacted hreacted
    exact ⟨hphase, call, openCall_since hsince hcall hsettled, hsettled,
      fun i hi => hsince.closed i (hclosed i hi)⟩

/-- A turn's step leaves the other turns as they were. -/
theorem TurnsInOrder.set (h : TurnsInOrder s) {lease : LeaseState}
    (hleases : NamedLeases lease) (hsince : SettledSince s.lease lease)
    (howned : ((s.turns.set t o').filterMap OpenedTurn.opening).Perm
      (List.range lease.opens.length)) (hholds : o'.Holds lease) :
    TurnsInOrder { lease, turns := s.turns.set t o' } where
  leases := hleases
  owned := howned
  holds u p hp := by
    rcases getElem?_set_cases hp with ⟨-, rfl⟩ | ⟨-, hp⟩
    · exact hholds
    · exact (h.holds u p hp).since hsince

/-! ## What a step can do -/

theorem executorStep_closed {turn : Turn} {state state' : TurnState} {label : TurnLabel}
    (hstep : executorStep turn state label = some state') (h : state.phase = .closed) :
    state'.phase = .closed := (executorStep_returned ⟨h, rfl, rfl⟩ hstep).closed

/-- A turn begins once. -/
theorem executorStep_fresh {turn : Turn} {state state' : TurnState} {label : TurnLabel}
    (hstep : executorStep turn state label = some state') (h : state'.phase = .fresh) :
    state.phase = .fresh := by
  cases executorStep_effect hstep with
  | body _ heffect =>
      cases heffect with
      | silent hs => exact hs.fresh h
      | ended => cases h
  | silent hs => exact hs.fresh h
  | neverBegan hphase => exact hphase
  | listed => cases h
  | stated => exact h
  | requested _ _ _ _ heffect => cases heffect <;> exact h
  | call hi heffect =>
      cases heffect with
      | moved hs => exact hs.fresh h
      | completed => exact h

/-- Every way a step changes the turns and the lease table. -/
inductive TurnsMove (s : KernelTurns) : TurnsLabel → KernelTurns → Prop
  | begun (turn : Turn) :
      TurnsMove s (.execute turn) { s with turns := s.turns ++ [.execute turn] }
  | asked {label : TurnsLabel} {t : ℕ} {o : OpenedTurn} {context : AccessContext} {aborted : Bool}
      {lease : LeaseState} {state : TurnState} (hlabel : label.turnOf = some t)
      (ht : s.turns[t]? = some o) (hfresh : o.state.phase = .fresh)
      (hphase : state.phase = .opening) (hnamed : context.executionId ≠ none)
      (hlease : leaseStep s.lease (.openTurnAuthority context aborted) = some lease) :
      TurnsMove s label
        { lease, turns := s.turns.set t { o with state, opening := s.lease.opens.length } }
  | goesOn {label : TurnsLabel} {t : ℕ} {o o' : OpenedTurn} {state : TurnState}
      {s' : KernelTurns} (hlabel : label.turnOf = some t) (ht : s.turns[t]? = some o)
      (hopening : o'.opening = o.opening) (hholds : o.Holds s.lease → o'.Holds s.lease)
      (hfresh : state.phase = .fresh → o'.state.phase = .fresh)
      (hclosed : o'.state.phase = .closed → state.phase = .closed)
      (hgoes : s.goesOn t o' state = some s') : TurnsMove s label s'
  | reacted {t : ℕ} {o : OpenedTurn} {call : OpenCall} {lease : LeaseState}
      (ht : s.turns[t]? = some o) (hphase : o.state.phase = .closed)
      (hcall : o.openCall s.lease = some call) (hsettled : HasSettled call)
      (hclose : closeScope s.lease (openedScope call) = some lease) :
      TurnsMove s (.openingSettled t)
        { lease, turns := s.turns.set t { o with reacted := true } }
  | kernel {label : LeaseLabel} {lease : LeaseState}
      (hopens : ∀ context aborted, label ≠ .openTurnAuthority context aborted)
      (hcloses : ∀ i, label ≠ .close i) (hlease : leaseStep s.lease label = some lease) :
      TurnsMove s (.kernel label) { s with lease }

omit [HostPlatform] in
theorem openedScope_eq {call : OpenCall} (h : openedScope call = some i) : call = .returned i := by
  cases call with
  | returned scope =>
      cases h
      rfl
  | loading _ => cases h
  | rejected _ => cases h

/-- A step of the turn body that is not its start is taken in the turn's own state. -/
theorem turnsMove_body {turnLabel : TurnLabel} {state : TurnState} (hlabel : label.turnOf = some t)
    (ht : s.turns[t]? = some o) (hstep : executorStep o.turn o.state turnLabel = some state)
    (hgoes : s.goesOn t o state = some s') : TurnsMove s label s' :=
  .goesOn hlabel ht rfl id (executorStep_fresh hstep) (executorStep_closed hstep) hgoes

theorem turnsStep_moves (hstep : turnsStep s label = some s') : TurnsMove s label s' := by
  cases label with
  | execute turn =>
      cases hstep
      exact .begun turn
  | starts t parent now aborted =>
      obtain ⟨o, ht, hstep⟩ := Option.bind_eq_some_iff.mp hstep
      obtain ⟨state, hbody, hstep⟩ := Option.bind_eq_some_iff.mp hstep
      split at hstep
      · next hphase =>
          obtain ⟨lease, hlease, rfl⟩ := Option.map_eq_some_iff.mp hstep
          have hfresh : o.state.phase = .fresh := by
            unfold executorStep at hbody
            dsimp only at hbody
            split at hbody
            · assumption
            · cases hbody
          exact .asked rfl ht hfresh hphase (Option.some_ne_none _) hlease
      · exact turnsMove_body rfl ht hbody hstep
  | opened t thrown =>
      obtain ⟨o, ht, hstep⟩ := Option.bind_eq_some_iff.mp hstep
      obtain ⟨call, hcall, hstep⟩ := Option.bind_eq_some_iff.mp hstep
      obtain ⟨answer, -, hstep⟩ := Option.bind_eq_some_iff.mp hstep
      obtain ⟨state, hbody, hstep⟩ := Option.bind_eq_some_iff.mp hstep
      have hphase : o.state.phase = .opening := by
        unfold executorStep at hbody
        dsimp only at hbody
        split at hbody
        · assumption
        · cases hbody
      refine @TurnsMove.goesOn _ s _ t o { o with authority := openedScope call } state s' rfl ht rfl
        (fun h => ?_) (executorStep_fresh hbody) (executorStep_closed hbody) hstep
      refine ⟨h.fresh, fun i hi => ?_, fun hclosed => ?_, h.reacted⟩
      · show o.openCall s.lease = _
        rw [hcall, openedScope_eq hi]
      · exact absurd (hphase.symm.trans hclosed) nofun
  | turn t turnLabel =>
      cases turnLabel with
      | start parent => cases hstep
      | opened answer => cases hstep
      | _ =>
          obtain ⟨o, ht, hstep⟩ := Option.bind_eq_some_iff.mp hstep
          obtain ⟨state, hbody, hstep⟩ := Option.bind_eq_some_iff.mp hstep
          exact turnsMove_body rfl ht hbody hstep
  | openingSettled t =>
      obtain ⟨o, ht, hstep⟩ := Option.bind_eq_some_iff.mp hstep
      split at hstep
      · cases hstep
      · next hphase =>
          split at hstep
          · cases hstep
          · cases hstep
          · next call hsettled hcall =>
              obtain ⟨lease, hclose, rfl⟩ := Option.map_eq_some_iff.mp hstep
              refine .reacted ht (not_not.mp hphase) hcall (fun context heq => ?_) hclose
              exact hsettled context heq
  | kernel leaseLabel =>
      cases leaseLabel with
      | openTurnAuthority context aborted => cases hstep
      | close i => cases hstep
      | loaded call resolution =>
          obtain ⟨lease, hlease, rfl⟩ := Option.map_eq_some_iff.mp hstep
          exact .kernel nofun nofun hlease
      | loadFailed call =>
          obtain ⟨lease, hlease, rfl⟩ := Option.map_eq_some_iff.mp hstep
          exact .kernel nofun nofun hlease
      | operate context =>
          unfold turnsStep at hstep
          obtain ⟨lease, hlease, rfl⟩ := Option.map_eq_some_iff.mp hstep
          exact .kernel nofun nofun hlease

/-- A move in one turn that opens nothing. -/
theorem TurnsInOrder.moveTurn (h : TurnsInOrder s) (ht : s.turns[t]? = some o)
    (hopening : o'.opening = o.opening) {handle : Option ℕ} {lease : LeaseState}
    (hcloses : Closes s.lease handle lease) (hholds : o'.Holds lease) :
    TurnsInOrder { lease, turns := s.turns.set t o' } := by
  refine h.set hcloses.named hcloses.since ?_ hholds
  rw [filterMap_set_same ht hopening, hcloses.opens]
  exact h.owned

omit [HostPlatform] in
/-- Where the turn goes, what it opened has gone before. -/
theorem OpenedTurn.openCall_same {lease lease' : LeaseState} (hopening : o'.opening = o.opening)
    (hopens : lease'.opens = lease.opens) : o'.openCall lease' = o.openCall lease := by
  rw [OpenedTurn.openCall, OpenedTurn.openCall, hopening, hopens]

/-- `goesOn` closes a handle when the turn ends, and nothing else. -/
theorem goesOn_cases {state : TurnState} (h : NamedLeases s.lease)
    (hgoes : s.goesOn t o state = some s') :
    ∃ handle lease, Closes s.lease handle lease ∧
      s' = { lease, turns := s.turns.set t { o with state } } ∧
      (∀ i, handle = some i → o.authority = some i) ∧
      (o.state.phase ≠ .closed → state.phase = .closed → handle = o.authority) := by
  unfold KernelTurns.goesOn at hgoes
  dsimp only at hgoes
  split at hgoes
  · obtain ⟨lease, hclose, rfl⟩ := Option.map_eq_some_iff.mp hgoes
    exact ⟨o.authority, lease, closeScope_closes h hclose, rfl, fun _ hi => hi, fun _ _ => rfl⟩
  · next hends =>
      cases hgoes
      refine ⟨none, s.lease, closeScope_closes h rfl, rfl, nofun, fun hopen hclosed => ?_⟩
      exact absurd ⟨hopen, hclosed⟩ hends

/-- **Every step keeps each lease with its turn.** -/
theorem turnsStep_inOrder (h : TurnsInOrder s) (hstep : turnsStep s label = some s') :
    TurnsInOrder s' := by
  cases turnsStep_moves hstep with
  | begun turn =>
      refine ⟨h.leases, ?_, fun u p hp => ?_⟩
      · rw [List.filterMap_append]
        show (_ ++ []).Perm _
        rw [List.append_nil]
        exact h.owned
      · rcases getElem?_append_singleton hp with hp | ⟨-, rfl⟩
        · exact h.holds u p hp
        · exact ⟨fun _ => rfl, nofun, nofun, nofun⟩
  | @asked _ t o context aborted lease state _ ht hfresh hphase hnamed hlease =>
      have hopens : ∀ c a, LeaseLabel.openTurnAuthority context aborted = .openTurnAuthority c a →
          c.executionId ≠ none := by
        intro c a heq
        cases heq
        exact hnamed
      have hmove := leaseStep_named h.leases hopens hlease
      have hnone : o.opening = none := (h.holds t o ht).fresh hfresh
      have hlength : lease.opens.length = s.lease.opens.length + 1 := by
        cases hmove with
        | asked => exact List.length_append
        | rejected hlabel => rcases hlabel with hlabel | ⟨_, hlabel⟩ <;> cases hlabel
      refine h.set (leaseStep_namedLeases h.leases hopens hlease) hmove.settledSince ?_ ?_
      · rw [hlength, List.range_succ]
        exact (filterMap_set_perm ht hnone rfl).trans (h.owned.append_right _)
      · have hunhanded : ∀ i, o.authority ≠ some i := by
          intro i hi
          have hobtained := (h.holds t o ht).handed i hi
          rw [OpenedTurn.Obtained, OpenedTurn.openCall, hnone] at hobtained
          cases hobtained
        refine ⟨fun hfresh' => ?_, fun i hi => absurd hi (hunhanded i),
          fun _ i hi => absurd hi (hunhanded i), fun hreacted => ?_⟩
        · exact absurd (hphase.symm.trans hfresh') nofun
        · obtain ⟨hclosed, -⟩ := (h.holds t o ht).reacted hreacted
          exact absurd (hfresh.symm.trans hclosed) nofun
  | @goesOn _ t o o' state _ _ ht hopening hholds hfresh hclosed hgoes =>
      obtain ⟨handle, lease, hcloses, rfl, -, hends⟩ := goesOn_cases h.leases hgoes
      have hbefore := hholds (h.holds t o ht)
      have hafter := hbefore.since hcloses.since
      refine h.moveTurn ht ?_ hcloses ⟨fun hphase => hbefore.fresh (hfresh hphase),
        hafter.handed, fun hphase i hi => ?_, fun hreacted => ?_⟩
      · exact hopening
      · by_cases hopen : o'.state.phase = .closed
        · exact hafter.closed hopen i hi
        · exact hcloses.closed i ((hends hopen hphase).trans hi)
      · obtain ⟨hphase, hrest⟩ := hafter.reacted hreacted
        exact ⟨hclosed hphase, hrest⟩
  | @reacted t o call lease ht hphase hcall hsettled hclose =>
      have hcloses := closeScope_closes h.leases hclose
      have hafter := (h.holds t o ht).since hcloses.since
      refine h.moveTurn ht ?_ hcloses ⟨hafter.fresh, hafter.handed, hafter.closed, fun _ => ?_⟩
      · rfl
      exact ⟨hphase, call, OpenedTurn.openCall_since hcloses.since hcall hsettled, hsettled, hcloses.closed⟩
  | @kernel leaseLabel lease hopens hcloses hlease =>
      have hnoOpen : ∀ c a, leaseLabel = .openTurnAuthority c a → c.executionId ≠ none :=
        fun c a heq => absurd heq (hopens c a)
      have hmove := leaseStep_named h.leases hnoOpen hlease
      have hlength : lease.opens.length = s.lease.opens.length := by
        cases hmove with
        | asked => exact absurd rfl (hopens _ _)
        | rejected => exact List.length_set ..
        | installed => exact List.length_set ..
        | closes => rfl
        | closedBefore => rfl
        | operated => rfl
      refine ⟨leaseStep_namedLeases h.leases hnoOpen hlease, ?_, fun u p hp =>
        (h.holds u p hp).since hmove.settledSince⟩
      show List.Perm _ (List.range lease.opens.length)
      rw [hlength]
      exact h.owned

/-- What has settled stays so. -/
theorem turnsStep_since (h : TurnsInOrder s) (hstep : turnsStep s label = some s') :
    SettledSince s.lease s'.lease := by
  cases turnsStep_moves hstep with
  | begun => exact .refl _
  | @asked _ t o context aborted lease state _ ht hfresh hphase hnamed hlease =>
      refine (leaseStep_named h.leases ?_ hlease).settledSince
      intro c a heq
      cases heq
      exact hnamed
  | goesOn _ _ _ _ _ _ hgoes =>
      obtain ⟨_, lease, hcloses, rfl, -⟩ := goesOn_cases h.leases hgoes
      exact hcloses.since
  | reacted _ _ _ _ hclose => exact (closeScope_closes h.leases hclose).since
  | kernel hopens _ hlease =>
      exact (leaseStep_named h.leases (fun c a heq => absurd heq (hopens c a)) hlease).settledSince

theorem turnsInOrder_empty : TurnsInOrder KernelTurns.empty where
  leases := namedLeases_empty
  owned := .nil
  holds _ _ h := by cases h

/-! ## Whose lease it is -/

/-- A scope is one turn's. -/
theorem TurnsInOrder.owner (h : TurnsInOrder s) {u : ℕ} {p : OpenedTurn}
    (ht : s.turns[t]? = some o) (hu : s.turns[u]? = some p) (hot : o.Obtained s.lease i)
    (hou : p.Obtained s.lease i) : t = u := by
  obtain ⟨k, hk, hat⟩ := Option.bind_eq_some_iff.mp hot
  obtain ⟨k', hk', hat'⟩ := Option.bind_eq_some_iff.mp hou
  obtain rfl := h.leases.once k k' i hat hat'
  exact eq_of_filterMap_nodup (h.owned.nodup_iff.mpr List.nodup_range) ht hu hk hk'

/-- **Only its own turn touches a lease.** -/
theorem TurnsInOrder.leaseKept (h : TurnsInOrder s) (hstep : turnsStep s label = some s') {u : ℕ}
    (hlabel : label.turnOf ≠ some u) {p : OpenedTurn} (hu : s.turns[u]? = some p)
    (hobtained : p.Obtained s.lease i) {scope : TurnScope} (hi : s.lease.scopes[i]? = some scope)
    (hopen : scope.closed = false) : LeaseKept s.lease s'.lease scope i := by
  cases turnsStep_moves hstep with
  | begun => exact ⟨hi, rfl⟩
  | @asked _ t o context aborted lease state _ ht hfresh hphase hnamed hlease =>
      refine (leaseStep_named h.leases ?_ hlease).leaseKept h.leases hi hopen nofun
      intro c a heq
      cases heq
      exact hnamed
  | @goesOn _ t o o' state _ hturn ht hopening hholds hfresh hclosed hgoes =>
      obtain ⟨handle, lease, hcloses, rfl, hhandle, -⟩ := goesOn_cases h.leases hgoes
      refine hcloses.kept i scope (fun heq => hlabel ?_) hi hopen
      have hown := (hholds (h.holds t o ht)).handed i (hhandle i heq)
      rw [OpenedTurn.Obtained, OpenedTurn.openCall_same hopening rfl] at hown
      rw [hturn, h.owner ht hu hown hobtained]
  | @reacted t o call lease ht hphase hcall hsettled hclose =>
      refine (closeScope_closes h.leases hclose).kept i scope (fun heq => hlabel ?_) hi hopen
      have hown : o.Obtained s.lease i := by
        rw [OpenedTurn.Obtained, hcall, openedScope_eq heq]
      exact congrArg some (h.owner ht hu hown hobtained)
  | @kernel leaseLabel lease hopens hcloses hlease =>
      exact (leaseStep_named h.leases (fun c a heq => absurd heq (hopens c a)) hlease).leaseKept
        h.leases hi hopen (hcloses i)

/-! ## No lease outlives its turn -/

/-- The turn's run has settled, and so has the open it made, as far as the turn reacts to it. -/
def OpenedTurn.Settled (o : OpenedTurn) : Prop :=
  o.state.phase = .closed ∧ (o.opening = none ∨ o.reacted = true)

omit [HostPlatform] in
theorem OpenedTurn.Holds.released {lease : LeaseState} (h : o.Holds lease) (hsettled : o.Settled)
    (hobtained : o.Obtained lease i) : ScopeClosed lease i := by
  rcases hsettled.2 with hnone | hreacted
  · rw [OpenedTurn.Obtained, OpenedTurn.openCall, hnone] at hobtained
    cases hobtained
  · obtain ⟨-, call, hcall, -, hclosed⟩ := h.reacted hreacted
    rw [hobtained] at hcall
    cases hcall
    exact hclosed i rfl

/-- Where every turn has settled, every scope is closed. -/
theorem TurnsInOrder.allClosed (h : TurnsInOrder s) (hsettled : ∀ o ∈ s.turns, o.Settled) :
    ∀ scope ∈ s.lease.scopes, scope.closed = true := by
  intro scope hscope
  obtain ⟨i, hlt, hi⟩ := List.mem_iff_getElem.mp hscope
  obtain ⟨k, hk⟩ := h.leases.returned i hlt
  have hmem : k ∈ s.turns.filterMap OpenedTurn.opening :=
    h.owned.mem_iff.mpr (List.mem_range.mpr (List.getElem?_eq_some_iff.mp hk).1)
  obtain ⟨o, ho, hopening⟩ := List.mem_filterMap.mp hmem
  obtain ⟨t, htlt, ht⟩ := List.mem_iff_getElem.mp ho
  have hobtained : o.Obtained s.lease i := Option.bind_eq_some_iff.mpr ⟨k, hopening, hk⟩
  have hat : s.turns[t]? = some o := List.getElem?_eq_some_iff.mpr ⟨htlt, ht⟩
  obtain ⟨scope', hi', hclosed⟩ := (h.holds t o hat).released (hsettled o ho) hobtained
  rw [List.getElem?_eq_getElem hlt, hi] at hi'
  cases hi'
  exact hclosed

/-- The reaction to an open that has settled is due. -/
theorem turnsStep_reacts (ht : s.turns[t]? = some o) (hphase : o.state.phase = .closed)
    {call : OpenCall} (hcall : o.openCall s.lease = some call) (hsettled : HasSettled call)
    (hlive : ∀ i, openedScope call = some i → i < s.lease.scopes.length) :
    ∃ s', turnsStep s (.openingSettled t) = some s' ∧
      s'.turns[t]? = some { o with reacted := true } := by
  obtain ⟨lease, hlease⟩ : ∃ lease, closeScope s.lease (openedScope call) = some lease := by
    cases hscope : openedScope call with
    | none => exact ⟨s.lease, rfl⟩
    | some i =>
        have hi := List.getElem?_eq_getElem (hlive i hscope)
        simp only [closeScope, leaseStep, hi]
        split
        · exact ⟨_, rfl⟩
        · exact ⟨_, rfl⟩
  refine ⟨{ lease, turns := s.turns.set t { o with reacted := true } }, ?_,
    List.getElem?_set_self (List.getElem?_eq_some_iff.mp ht).1⟩
  unfold turnsStep
  dsimp only
  rw [ht, Option.bind_some, if_neg (not_not.mpr hphase), hcall]
  cases call with
  | loading context => exact absurd rfl (hsettled context)
  | returned scope =>
      show Option.map _ (closeScope s.lease (openedScope (.returned scope))) = _
      rw [hlease]
      rfl
  | rejected error =>
      show Option.map _ (closeScope s.lease (openedScope (.rejected error))) = _
      rw [hlease]
      rfl

/-- What holds of the leases of the turns over one kernel. -/
structure LeasesReleased (s : KernelTurns) : Prop where
  /-- A turn that has settled has no scope open. -/
  released : ∀ (t : ℕ) o, s.turns[t]? = some o → o.Settled → ∀ i, o.Obtained s.lease i →
    ScopeClosed s.lease i
  /-- Once the run and the open have settled, the one reaction that is left settles the turn. -/
  due : ∀ (t : ℕ) o call, s.turns[t]? = some o → o.state.phase = .closed →
    o.openCall s.lease = some call → HasSettled call →
      ∃ s' o', turnsStep s (.openingSettled t) = some s' ∧ s'.turns[t]? = some o' ∧ o'.Settled ∧
        ∀ i, o.Obtained s.lease i → ScopeClosed s'.lease i
  /-- While a turn's scope is open, nobody else's step touches it or the entry behind it. -/
  kept : ∀ (t : ℕ) o i scope, s.turns[t]? = some o → o.Obtained s.lease i →
    s.lease.scopes[i]? = some scope → scope.closed = false →
      ∀ label s', label.turnOf ≠ some t → turnsStep s label = some s' →
        LeaseKept s.lease s'.lease scope i
  /-- A turn that was refused as already running touches no lease. -/
  refused : ∀ (t : ℕ) o executionId, s.turns[t]? = some o →
    o.openCall s.lease = some (.rejected (.executionInProgress executionId)) →
      ∀ label s', label.turnOf = some t → turnsStep s label = some s' →
        s'.lease.leases = s.lease.leases ∧ s'.lease.scopes = s.lease.scopes
  empty : (∀ o ∈ s.turns, o.Settled) → ∀ key, s.lease.leases key = none

/-- A turn that obtained no scope closes none. -/
theorem TurnsInOrder.refused (h : TurnsInOrder s) (ht : s.turns[t]? = some o) {error : OpenError}
    (hcall : o.openCall s.lease = some (.rejected error)) (hlabel : label.turnOf = some t)
    (hstep : turnsStep s label = some s') :
    s'.lease.leases = s.lease.leases ∧ s'.lease.scopes = s.lease.scopes := by
  have hsame : ∀ {u : ℕ} {p : OpenedTurn}, label.turnOf = some u → s.turns[u]? = some p → p = o := by
    intro u p hu hp
    rw [hlabel] at hu
    cases hu
    exact Option.some.inj (hp.symm.trans ht)
  cases turnsStep_moves hstep with
  | begun => cases hlabel
  | asked hturn ht' hfresh =>
      -- it has opened before
      obtain rfl := hsame hturn ht'
      rw [OpenedTurn.openCall, (h.holds t _ ht).fresh hfresh] at hcall
      cases hcall
  | @goesOn _ u p o' state _ hturn hp hopening hholds hfresh hclosed hgoes =>
      obtain rfl := hsame hturn hp
      have hunhanded : o'.authority = none := by
        cases hauthority : o'.authority with
        | none => rfl
        | some i =>
            have hown := (hholds (h.holds u _ hp)).handed i hauthority
            rw [OpenedTurn.Obtained, OpenedTurn.openCall_same hopening rfl, hcall] at hown
            cases hown
      unfold KernelTurns.goesOn at hgoes
      rw [hunhanded] at hgoes
      dsimp only [closeScope] at hgoes
      split at hgoes <;> cases hgoes <;> exact ⟨rfl, rfl⟩
  | reacted ht' _ hcall' _ hclose =>
      obtain rfl := hsame rfl ht'
      rw [hcall] at hcall'
      cases hcall'
      cases hclose
      exact ⟨rfl, rfl⟩
  | kernel => cases hlabel

/-- **No lease outlives its turn**, in every state of every run. -/
theorem no_lease_outlives_its_turn {labels : List TurnsLabel} {s : KernelTurns}
    (hrun : run turnsStep .empty labels = some s) : LeasesReleased s := by
  have h : TurnsInOrder s :=
    run_invariant (fun _ _ _ h hstep => turnsStep_inOrder h hstep) turnsInOrder_empty hrun
  refine ⟨fun t o ht hsettled i hobtained => (h.holds t o ht).released hsettled hobtained,
    fun t o call ht hphase hcall hsettled => ?_, ?_, ?_, fun hsettled key => ?_⟩
  · have hlive : ∀ i, openedScope call = some i → i < s.lease.scopes.length := by
      intro i hi
      rw [openedScope_eq hi] at hcall
      obtain ⟨k, -, hk⟩ := Option.bind_eq_some_iff.mp hcall
      exact h.leases.placed k i hk
    -- the reaction to `opening` is one more step, and it closes what the late scope came to
    obtain ⟨s', hstep, hat⟩ := turnsStep_reacts ht hphase hcall hsettled hlive
    have hdone : OpenedTurn.Settled { o with reacted := true } := ⟨hphase, .inr rfl⟩
    refine ⟨s', _, hstep, hat, hdone, fun i hobtained => ?_⟩
    have hstill : OpenedTurn.Obtained { o with reacted := true } s'.lease i :=
      OpenedTurn.openCall_since (turnsStep_since h hstep) hobtained nofun
    exact ((turnsStep_inOrder h hstep).holds t _ hat).released hdone hstill
  · intro t o i scope ht hobtained hi hopen label s' hlabel hstep
    exact h.leaseKept hstep hlabel ht hobtained hi hopen
  · intro t o executionId ht hcall label s' hlabel hstep
    exact h.refused ht hcall hlabel hstep
  -- every scope is closed, so no entry has a count to stand on
  · have hzero : s.lease.openScopes key = 0 := by
      refine List.countP_eq_zero.mpr fun scope hscope => ?_
      simp [TurnScope.holds, h.allClosed hsettled scope hscope]
    cases hentry : s.lease.leases key with
    | none => rfl
    | some entry =>
        have hpos := (h.leases.integrity.counted.refs key entry hentry).2
        omega

end Turns

namespace Sample

/-- Two executions of one request race. The one that loads first runs until its caller stops it. -/
def sharedExecution (turn : Turn) : List TurnsLabel :=
  [.execute turn, .execute turn, .starts 0 none "2026-03-01T00:00:00Z" false,
    .starts 1 none "2026-03-01T00:00:00Z" false,
    .kernel (.loaded 0 (.unavailable .grantSourceFailed none)), .opened 0 .other,
    .kernel (.loaded 1 (.unavailable .grantSourceFailed none)), .opened 1 .other,
    .openingSettled 1, .turn 0 (.hostAborts .other), .turn 0 .abandoned, .openingSettled 0]

end Sample

open scoped SharedOS.Foundation.Reference in
theorem no_lease_outlives_its_turn_shared :
    ∃ s, run turnsStep .empty (Sample.sharedExecution (Sample.turn Kernel.Sample.reader)) = some s ∧
      LeasesReleased s := by
  have hrun : (run turnsStep .empty
      (Sample.sharedExecution (Sample.turn Kernel.Sample.reader))).isSome := by decide +kernel
  obtain ⟨s, hs⟩ := Option.isSome_iff_exists.mp hrun
  exact ⟨s, hs, no_lease_outlives_its_turn hs⟩

end SharedOS.Runtime
