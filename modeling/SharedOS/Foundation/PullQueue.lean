/-
SharedOS.Foundation.PullQueue — values pushed by one side and pulled by the other, where a pull may
wait, and may be abandoned while it waits.

A push serves the oldest waiting read, and is buffered when none waits. A read takes the oldest
buffered value, and waits when there is none. Closing answers every waiting read with nothing, and
every later one for which nothing is buffered. A read runs under a signal: it is refused when that is
raised already, and given up when it is raised while the read waits. A read given up keeps its place
among those waiting, so a value may be handed to it and reach nobody.

`handed` is the account: which value left the queue to which read, in order. Along every run the
values pushed are those handed over followed by those still buffered, and the reads they were handed
to are in the order they were made (`Kept`).
-/
import Mathlib.Data.List.Basic

namespace SharedOS.Foundation

/-- Where a read is. -/
inductive ReadState (α : Type) where
  | waiting
  | got (value : α)
  /-- Answered with nothing: the queue is closed. -/
  | ended
  | aborted

/-- A read: the signal it waits against, and where it is. -/
structure QueueRead (α : Type) where
  signal : ℕ
  state : ReadState α

/-- A promise settles once. -/
def ReadState.settle {α : Type} (outcome : ReadState α) : ReadState α → ReadState α
  | .waiting => outcome
  | settled => settled

/-- The read settles, unless it has. -/
def QueueRead.settle {α : Type} (read : QueueRead α) (outcome : ReadState α) : QueueRead α :=
  { read with state := outcome.settle read.state }

/-- The queue: what it buffers, the reads that wait, and every read it was asked for. -/
structure PullQueue (α : Type) where
  buffered : List α
  /-- The reads to be served, oldest first, each by its place in `reads`. -/
  waiting : List ℕ
  ended : Bool
  reads : List (QueueRead α)
  /-- The signals raised so far. -/
  raised : List ℕ

/-- What can happen to the queue. -/
inductive QueueAction (α : Type) where
  | push (value : α)
  | read (signal : ℕ)
  | abort (signal : ℕ)
  | close

namespace PullQueue

variable {α : Type}

/-- A queue nothing has happened to. -/
def empty : PullQueue α := { buffered := [], waiting := [], ended := false, reads := [], raised := [] }

/-- Settle one read. -/
def settle (reads : List (QueueRead α)) (i : ℕ) (outcome : ReadState α) : List (QueueRead α) :=
  reads.modify i fun read => read.settle outcome

/-- A value goes to the oldest read that waits, or into the buffer. -/
def push (q : PullQueue α) (value : α) : PullQueue α :=
  match q.waiting with
  | [] => { q with buffered := q.buffered ++ [value] }
  | i :: rest => { q with waiting := rest, reads := settle q.reads i (.got value) }

/-- A read takes the oldest value buffered, or waits where there is none. -/
def read (q : PullQueue α) (signal : ℕ) : PullQueue α :=
  match q.buffered with
  | value :: rest => { q with buffered := rest, reads := q.reads ++ [⟨signal, .got value⟩] }
  | [] =>
    if q.ended then { q with reads := q.reads ++ [⟨signal, .ended⟩] }
    else if signal ∈ q.raised then { q with reads := q.reads ++ [⟨signal, .aborted⟩] }
    else { q with waiting := q.waiting ++ [q.reads.length], reads := q.reads ++ [⟨signal, .waiting⟩] }

/-- A signal is raised, and the reads that wait against it settle. -/
def abort (q : PullQueue α) (signal : ℕ) : PullQueue α where
  buffered := q.buffered
  waiting := q.waiting
  ended := q.ended
  reads := q.reads.map fun read => if read.signal = signal then read.settle .aborted else read
  raised := signal :: q.raised

/-- The queue ends, and every read that waits with it. -/
def close (q : PullQueue α) : PullQueue α :=
  if q.ended then q
  else { q with
    waiting := []
    ended := true
    reads := q.waiting.foldl (fun reads i => settle reads i .ended) q.reads }

/-- One action. -/
def step (q : PullQueue α) : QueueAction α → PullQueue α
  | .push value => q.push value
  | .read signal => q.read signal
  | .abort signal => q.abort signal
  | .close => q.close

/-- The queue after these actions. -/
def after (q : PullQueue α) (actions : List (QueueAction α)) : PullQueue α := actions.foldl step q

/-! ## The account -/

/-- The value an action pushes. -/
def pushedBy : QueueAction α → Option α
  | .push value => some value
  | _ => none

/-- The values pushed, in order. -/
def pushed (actions : List (QueueAction α)) : List α := actions.filterMap pushedBy

/-- What an action hands over, and to which read. -/
def handed? (q : PullQueue α) : QueueAction α → Option (ℕ × α)
  | .push value => q.waiting.head?.map fun i => (i, value)
  | .read _ => q.buffered.head?.map fun value => (q.reads.length, value)
  | _ => none

/-- The values handed over along a run, each with its read, in order. -/
def handed : PullQueue α → List (QueueAction α) → List (ℕ × α)
  | _, [] => []
  | q, action :: rest => (q.handed? action).toList ++ handed (q.step action) rest

/-- The state of a read. -/
def stateOf (q : PullQueue α) (i : ℕ) : Option (ReadState α) := q.reads[i]?.map QueueRead.state

/-- What holds along a run that has pushed these values and handed those over. -/
structure Kept (q : PullQueue α) (pushed : List α) (handed : List (ℕ × α)) : Prop where
  order : pushed = handed.map Prod.snd ++ q.buffered
  inOrder : (handed.map Prod.fst ++ q.waiting).Pairwise (· < ·)
  known : ∀ i ∈ handed.map Prod.fst ++ q.waiting, i < q.reads.length
  idle : q.waiting = [] ∨ q.buffered = []
  closed : q.ended = true → q.waiting = []
  /-- What was handed to a read it has, unless it had been given up. -/
  served : ∀ i value, (i, value) ∈ handed →
    q.stateOf i = some (.got value) ∨ q.stateOf i = some .aborted
  got : ∀ i value, q.stateOf i = some (.got value) → (i, value) ∈ handed
  waits : ∀ i, q.stateOf i = some .waiting → i ∈ q.waiting
  waiter : ∀ i ∈ q.waiting, q.stateOf i = some .waiting ∨ q.stateOf i = some .aborted
  givenUp : ∀ (i : ℕ) (read : QueueRead α), q.reads[i]? = some read → read.state = .aborted → read.signal ∈ q.raised

theorem kept_empty : Kept (empty : PullQueue α) [] [] where
  order := rfl
  inOrder := .nil
  known _ h := by simp [empty] at h
  idle := .inl rfl
  closed _ := rfl
  served _ _ h := by simp at h
  got _ _ h := by simp [stateOf, empty] at h
  waits _ h := by simp [stateOf, empty] at h
  waiter _ h := by simp [empty] at h
  givenUp _ _ h := by simp [empty] at h

/-! ## What one action does to a read -/

theorem settle_settle (outcome state : ReadState α) :
    outcome.settle (outcome.settle state) = outcome.settle state := by
  cases state with
  | waiting => cases outcome <;> rfl
  | _ => rfl

theorem settle_eq_waiting {outcome state : ReadState α} (houtcome : outcome ≠ .waiting)
    (h : outcome.settle state = .waiting) : False := by
  cases state with
  | waiting => exact houtcome h
  | _ => cases h

theorem eq_of_settle_eq {outcome state other : ReadState α} (hne : outcome ≠ other)
    (h : outcome.settle state = other) : state = other := by
  cases state with
  | waiting => exact absurd h hne
  | _ => exact h

theorem getElem?_settle (reads : List (QueueRead α)) (i j : ℕ) (outcome : ReadState α) :
    (settle reads i outcome)[j]? =
      reads[j]?.map fun read => if i = j then read.settle outcome else read := by
  unfold settle
  rw [List.getElem?_modify]
  split
  · simp
  · simp

theorem getElem?_settleAll (waiting : List ℕ) (reads : List (QueueRead α)) (j : ℕ)
    (outcome : ReadState α) :
    (waiting.foldl (fun reads i => settle reads i outcome) reads)[j]? =
      reads[j]?.map fun read => if j ∈ waiting then read.settle outcome else read := by
  induction waiting generalizing reads with
  | nil => simp
  | cons i rest ih =>
      rw [List.foldl_cons, ih, getElem?_settle, Option.map_map]
      congr 1
      funext read
      by_cases hij : i = j
      · subst hij
        by_cases hrest : i ∈ rest
        · simp [hrest, QueueRead.settle, settle_settle]
        · simp [hrest]
      · have hji : ¬ j = i := fun h => hij h.symm
        simp [hij, hji]

theorem length_settleAll (waiting : List ℕ) (reads : List (QueueRead α)) (outcome : ReadState α) :
    (waiting.foldl (fun reads i => settle reads i outcome) reads).length = reads.length := by
  induction waiting generalizing reads with
  | nil => rfl
  | cons i rest ih =>
      rw [List.foldl_cons, ih]
      exact List.length_modify ..

/-- The states after a change of single reads. -/
theorem stateOf_of_map (q q' : PullQueue α) {p : ℕ → Prop} [DecidablePred p] {outcome : ReadState α}
    (h : ∀ j, q'.reads[j]? =
      q.reads[j]?.map fun read => if p j then read.settle outcome else read) (j : ℕ) :
    q'.stateOf j = (q.stateOf j).map fun state => if p j then outcome.settle state else state := by
  unfold stateOf
  rw [h, Option.map_map, Option.map_map]
  congr 1
  funext read
  by_cases hj : p j
  · simp [hj, QueueRead.settle]
  · simp [hj]

theorem stateOf_snoc (q q' : PullQueue α) {read : QueueRead α} (h : q'.reads = q.reads ++ [read])
    (i : ℕ) : q'.stateOf i = if i = q.reads.length then some read.state else q.stateOf i := by
  unfold stateOf
  rw [h]
  rcases Nat.lt_trichotomy i q.reads.length with hlt | heq | hgt
  · rw [List.getElem?_append_left hlt, if_neg (Nat.ne_of_lt hlt)]
  · subst heq
    simp
  · rw [if_neg (Nat.ne_of_gt hgt), List.getElem?_eq_none (by simp; omega),
      List.getElem?_eq_none (Nat.le_of_lt hgt)]

theorem stateOf_abort (q : PullQueue α) (signal i : ℕ) :
    (q.abort signal).stateOf i = q.stateOf i ∨
      (q.abort signal).stateOf i = (q.stateOf i).map (ReadState.settle .aborted) := by
  unfold stateOf PullQueue.abort
  rw [List.getElem?_map, Option.map_map]
  cases q.reads[i]? with
  | none => exact .inl rfl
  | some read =>
      by_cases hsignal : read.signal = signal
      · simp [hsignal, QueueRead.settle]
      · simp [hsignal]

section Steps

variable {q : PullQueue α} {values : List α} {given : List (ℕ × α)}

/-- A read that was served waits no longer. -/
theorem Kept.before_waiting (h : Kept q values given) {i j : ℕ} (hi : i ∈ given.map Prod.fst)
    (hj : j ∈ q.waiting) : i < j :=
  (List.pairwise_append.mp h.inOrder).2.2 i hi j hj

/-- The oldest waiting read is served. -/
theorem Kept.serve (h : Kept q values given) {i : ℕ} {rest : List ℕ} (hwaiting : q.waiting = i :: rest)
    (value : α) :
    Kept { q with waiting := rest, reads := settle q.reads i (.got value) } (values ++ [value])
      (given ++ [(i, value)]) := by
  have hempty : q.buffered = [] := h.idle.resolve_left (by simp [hwaiting])
  have hin : i ∈ q.waiting := by simp [hwaiting]
  have hfirst : ∀ j ∈ rest, i < j := by
    have hsorted := (List.pairwise_append.mp h.inOrder).2.1
    rw [hwaiting] at hsorted
    exact (List.pairwise_cons.mp hsorted).1
  have hreads := fun j => getElem?_settle q.reads i j (.got value)
  have hstate := stateOf_of_map q
    { q with waiting := rest, reads := settle q.reads i (.got value) } hreads
  refine ⟨?_, ?_, ?_, .inr hempty, ?_, ?_, ?_, ?_, ?_, ?_⟩
  · rw [h.order, hempty]
    simp
  · simpa [hwaiting] using h.inOrder
  · have hknown := h.known
    rw [hwaiting] at hknown
    simpa [settle] using hknown
  · intro hended
    have hnone := h.closed hended
    rw [hwaiting] at hnone
    cases hnone
  · intro j given' hmem
    rw [hstate]
    rcases List.mem_append.mp hmem with hold | hnew
    · have hlt : j < i := h.before_waiting (List.mem_map_of_mem hold) hin
      have hne : ¬ i = j := by omega
      simpa [hne] using h.served j given' hold
    · obtain ⟨rfl, rfl⟩ := Prod.mk.inj (List.mem_singleton.mp hnew)
      -- a read given up before keeps its abort: the value it was served is lost to it
      rcases h.waiter _ hin with hstill | hgone
      · simp [hstill, ReadState.settle]
      · simp [hgone, ReadState.settle]
  · intro j given' hgot
    rw [hstate, Option.map_eq_some_iff] at hgot
    obtain ⟨state, hs, heq⟩ := hgot
    by_cases hij : i = j
    · subst hij
      rw [if_pos rfl] at heq
      cases state with
      | waiting =>
          cases heq
          exact List.mem_append_right _ (List.mem_singleton_self _)
      | got other =>
          cases heq
          exact List.mem_append_left _ (h.got _ _ hs)
      | _ => cases heq
    · rw [if_neg hij] at heq
      rw [heq] at hs
      exact List.mem_append_left _ (h.got _ _ hs)
  · intro j hwaits
    rw [hstate, Option.map_eq_some_iff] at hwaits
    obtain ⟨state, hs, heq⟩ := hwaits
    by_cases hij : i = j
    · rw [if_pos hij] at heq
      exact (settle_eq_waiting (fun hgot => by cases hgot) heq).elim
    · rw [if_neg hij] at heq
      rw [heq] at hs
      have hmem := h.waits j hs
      rw [hwaiting] at hmem
      exact (List.mem_cons.mp hmem).resolve_left fun heq => hij heq.symm
  · intro j hmem
    have hlt := hfirst j hmem
    have hne : ¬ i = j := by omega
    rw [hstate]
    simpa [hne] using h.waiter j (by simp [hwaiting, hmem])
  · intro j read hread haborted
    rw [hreads, Option.map_eq_some_iff] at hread
    obtain ⟨old, hold, rfl⟩ := hread
    by_cases hij : i = j
    · rw [if_pos hij] at haborted ⊢
      exact h.givenUp j old hold (eq_of_settle_eq (fun hgot => by cases hgot) haborted)
    · rw [if_neg hij] at haborted ⊢
      exact h.givenUp j old hold haborted

theorem Kept.push (h : Kept q values given) (value : α) :
    Kept (q.push value) (values ++ [value])
      (given ++ (q.handed? (.push value)).toList) := by
  cases hwaiting : q.waiting with
  | nil =>
      have hpush : q.push value = { q with buffered := q.buffered ++ [value] } := by
        unfold PullQueue.push
        rw [hwaiting]
      have hnone : q.handed? (.push value) = none := by simp [handed?, hwaiting]
      rw [hpush, hnone, Option.toList_none, List.append_nil]
      exact { h with
        order := by simp only [h.order, List.append_assoc]
        idle := .inl hwaiting }
  | cons i rest =>
      have hpush : q.push value =
          { q with waiting := rest, reads := settle q.reads i (.got value) } := by
        unfold PullQueue.push
        rw [hwaiting]
      have hhanded : q.handed? (.push value) = some (i, value) := by simp [handed?, hwaiting]
      rw [hpush, hhanded, Option.toList_some]
      exact h.serve hwaiting value

/-- One read more, and what is known of the reads made before. -/
theorem Kept.givenUp_snoc (h : Kept q values given) {read : QueueRead α}
    (hread : read.state = .aborted → read.signal ∈ q.raised) (i : ℕ) (found : QueueRead α)
    (hfound : (q.reads ++ [read])[i]? = some found) (haborted : found.state = .aborted) :
    found.signal ∈ q.raised := by
  rcases Nat.lt_or_ge i q.reads.length with hlt | hge
  · rw [List.getElem?_append_left hlt] at hfound
    exact h.givenUp i found hfound haborted
  · rw [List.getElem?_append_right hge, List.getElem?_singleton] at hfound
    split at hfound
    · cases hfound
      exact hread haborted
    · cases hfound

/-- A read is refused, or answered with nothing. -/
theorem Kept.refuse (h : Kept q values given) {read : QueueRead α}
    (hstate : read.state = .ended ∨ read.state = .aborted ∧ read.signal ∈ q.raised) :
    Kept { q with reads := q.reads ++ [read] } values given := by
  have hstates := stateOf_snoc q { q with reads := q.reads ++ [read] } rfl
  have hraised : read.state = .aborted → read.signal ∈ q.raised := by
    intro haborted
    rcases hstate with hended | ⟨-, hmem⟩
    · rw [hended] at haborted
      cases haborted
    · exact hmem
  have hold : ∀ {i}, i < q.reads.length →
      ({ q with reads := q.reads ++ [read] } : PullQueue α).stateOf i = q.stateOf i := by
    intro i hi
    rw [hstates, if_neg (Nat.ne_of_lt hi)]
  refine ⟨h.order, h.inOrder, ?_, h.idle, h.closed, ?_, ?_, ?_, ?_, h.givenUp_snoc hraised⟩
  · intro i hi
    have hlt := h.known i hi
    simp only [List.length_append, List.length_singleton]
    omega
  · intro i value hmem
    rw [hold (h.known i (List.mem_append_left _ (List.mem_map_of_mem hmem)))]
    exact h.served i value hmem
  · intro i value hgot
    rw [hstates] at hgot
    split at hgot
    · have hsame := Option.some.inj hgot
      rcases hstate with hended | ⟨haborted, -⟩
      · rw [hended] at hsame
        cases hsame
      · rw [haborted] at hsame
        cases hsame
    · exact h.got i value hgot
  · intro i hwaits
    rw [hstates] at hwaits
    split at hwaits
    · have hsame := Option.some.inj hwaits
      rcases hstate with hended | ⟨haborted, -⟩
      · rw [hended] at hsame
        cases hsame
      · rw [haborted] at hsame
        cases hsame
    · exact h.waits i hwaits
  · intro i hmem
    rw [hold (h.known i (List.mem_append_right _ hmem))]
    exact h.waiter i hmem

/-- A read takes the oldest buffered value. -/
theorem Kept.take (h : Kept q values given) {value : α} {rest : List α}
    (hbuffered : q.buffered = value :: rest) (signal : ℕ) :
    Kept { q with buffered := rest, reads := q.reads ++ [⟨signal, .got value⟩] } values
      (given ++ [(q.reads.length, value)]) := by
  have hwaiting : q.waiting = [] := h.idle.resolve_right (by simp [hbuffered])
  have hstates := stateOf_snoc q
    { q with buffered := rest, reads := q.reads ++ [⟨signal, .got value⟩] } rfl
  have hknown := h.known
  have hsorted := h.inOrder
  rw [hwaiting, List.append_nil] at hknown hsorted
  refine ⟨?_, ?_, ?_, .inl hwaiting, fun _ => hwaiting, ?_, ?_, ?_, ?_,
    h.givenUp_snoc fun haborted => by cases haborted⟩
  · rw [h.order, hbuffered]
    simp
  · simp only [hwaiting, List.append_nil, List.map_append, List.map_cons, List.map_nil]
    refine List.pairwise_append.mpr ⟨hsorted, List.pairwise_singleton _ _, fun i hi j hj => ?_⟩
    rw [List.mem_singleton.mp hj]
    exact hknown i hi
  · intro i hi
    simp only [hwaiting, List.append_nil, List.map_append, List.mem_append] at hi
    simp only [List.length_append, List.length_singleton]
    rcases hi with hi | hi
    · have hlt := hknown i hi
      omega
    · simp at hi
      omega
  · intro i served hmem
    rw [hstates]
    rcases List.mem_append.mp hmem with hold | hnew
    · have hlt := hknown i (List.mem_map_of_mem hold)
      rw [if_neg (Nat.ne_of_lt hlt)]
      exact h.served i served hold
    · obtain ⟨rfl, rfl⟩ := Prod.mk.inj (List.mem_singleton.mp hnew)
      rw [if_pos rfl]
      exact .inl rfl
  · intro i served hgot
    rw [hstates] at hgot
    split at hgot
    · next heq =>
        cases hgot
        rw [heq]
        exact List.mem_append_right _ (List.mem_singleton_self _)
    · exact List.mem_append_left _ (h.got i served hgot)
  · intro i hwaits
    rw [hstates] at hwaits
    split at hwaits
    · cases hwaits
    · exact h.waits i hwaits
  · intro i hmem
    rw [show ({ q with buffered := rest, reads := q.reads ++ [⟨signal, .got value⟩] } :
      PullQueue α).waiting = [] from hwaiting] at hmem
    cases hmem

/-- A read waits. -/
theorem Kept.wait (h : Kept q values given) (hbuffered : q.buffered = []) (hopen : q.ended = false)
    (signal : ℕ) :
    Kept { q with waiting := q.waiting ++ [q.reads.length],
                  reads := q.reads ++ [⟨signal, .waiting⟩] } values given := by
  have hstates := stateOf_snoc q
    { q with waiting := q.waiting ++ [q.reads.length],
             reads := q.reads ++ [⟨signal, .waiting⟩] } rfl
  refine ⟨h.order, ?_, ?_, .inr hbuffered, ?_, ?_, ?_, ?_, ?_,
    h.givenUp_snoc fun haborted => by cases haborted⟩
  · rw [← List.append_assoc]
    refine List.pairwise_append.mpr ⟨h.inOrder, List.pairwise_singleton _ _, fun i hi j hj => ?_⟩
    rw [List.mem_singleton.mp hj]
    exact h.known i hi
  · intro i hi
    simp only [List.length_append, List.length_singleton]
    rw [← List.append_assoc, List.mem_append] at hi
    rcases hi with hi | hi
    · have hlt := h.known i hi
      omega
    · rw [List.mem_singleton.mp hi]
      omega
  · intro hended
    rw [show q.ended = true from hended] at hopen
    cases hopen
  · intro i value hmem
    have hlt := h.known i (List.mem_append_left _ (List.mem_map_of_mem hmem))
    rw [hstates, if_neg (Nat.ne_of_lt hlt)]
    exact h.served i value hmem
  · intro i value hgot
    rw [hstates] at hgot
    split at hgot
    · cases hgot
    · exact h.got i value hgot
  · intro i hwaits
    rw [hstates] at hwaits
    split at hwaits
    · next heq =>
        rw [heq]
        exact List.mem_append_right _ (List.mem_singleton_self _)
    · exact List.mem_append_left _ (h.waits i hwaits)
  · intro i hmem
    rw [hstates]
    rcases List.mem_append.mp hmem with hold | hnew
    · have hlt := h.known i (List.mem_append_right _ hold)
      rw [if_neg (Nat.ne_of_lt hlt)]
      exact h.waiter i hold
    · rw [List.mem_singleton.mp hnew, if_pos rfl]
      exact .inl rfl

theorem Kept.read (h : Kept q values given) (signal : ℕ) :
    Kept (q.read signal) values (given ++ (q.handed? (.read signal)).toList) := by
  unfold PullQueue.read
  split
  · next value rest hbuffered =>
      have hhanded : q.handed? (.read signal) = some (q.reads.length, value) := by
        simp [handed?, hbuffered]
      rw [hhanded, Option.toList_some]
      exact h.take hbuffered signal
  · next hbuffered =>
      have hnone : q.handed? (.read signal) = none := by simp [handed?, hbuffered]
      rw [hnone, Option.toList_none, List.append_nil]
      split
      · exact h.refuse (.inl rfl)
      · next hopen =>
          split
          · next hraised => exact h.refuse (.inr ⟨rfl, hraised⟩)
          · exact h.wait hbuffered (by simpa using hopen) signal

/-- The reads under a raised signal give up waiting. -/
theorem Kept.abort (h : Kept q values given) (signal : ℕ) : Kept (q.abort signal) values given := by
  have hstates := stateOf_abort q signal
  refine ⟨h.order, h.inOrder, ?_, h.idle, h.closed, ?_, ?_, ?_, ?_, ?_⟩
  · intro i hi
    simpa [PullQueue.abort] using h.known i hi
  · intro i value hmem
    have hserved := h.served i value hmem
    rcases hstates i with hsame | hmap
    · rw [hsame]
      exact hserved
    · rw [hmap]
      rcases hserved with hgot | hgone
      · rw [hgot]
        exact .inl rfl
      · rw [hgone]
        exact .inr rfl
  · intro i value hgot
    rcases hstates i with hsame | hmap
    · exact h.got i value (hsame ▸ hgot)
    · rw [hmap, Option.map_eq_some_iff] at hgot
      obtain ⟨state, hs, heq⟩ := hgot
      rw [eq_of_settle_eq (fun hgone => by cases hgone) heq] at hs
      exact h.got i value hs
  · intro i hwaits
    rcases hstates i with hsame | hmap
    · exact h.waits i (hsame ▸ hwaits)
    · rw [hmap, Option.map_eq_some_iff] at hwaits
      obtain ⟨state, hs, heq⟩ := hwaits
      exact (settle_eq_waiting (fun hgone => by cases hgone) heq).elim
  · intro i hmem
    have hwaiter := h.waiter i hmem
    rcases hstates i with hsame | hmap
    · rw [hsame]
      exact hwaiter
    · rw [hmap]
      rcases hwaiter with hstill | hgone
      · rw [hstill]
        exact .inr rfl
      · rw [hgone]
        exact .inr rfl
  · intro i found hfound haborted
    have hraised : (q.abort signal).raised = signal :: q.raised := rfl
    unfold PullQueue.abort at hfound
    rw [List.getElem?_map, Option.map_eq_some_iff] at hfound
    obtain ⟨old, hold, rfl⟩ := hfound
    rw [hraised]
    by_cases hsignal : old.signal = signal
    · rw [if_pos hsignal, show (old.settle .aborted).signal = old.signal from rfl, hsignal]
      exact List.mem_cons_self
    · rw [if_neg hsignal] at haborted ⊢
      exact List.mem_cons_of_mem _ (h.givenUp i old hold haborted)

/-- Closing answers every waiting read with nothing. -/
theorem Kept.close (h : Kept q values given) : Kept q.close values given := by
  unfold PullQueue.close
  split
  · exact h
  · have hreads := fun j => getElem?_settleAll q.waiting q.reads j .ended
    have hstates := stateOf_of_map q { q with
      waiting := []
      ended := true
      reads := q.waiting.foldl (fun reads i => settle reads i .ended) q.reads } hreads
    have hlength := length_settleAll q.waiting q.reads .ended
    refine ⟨h.order, ?_, ?_, .inl rfl, fun _ => rfl, ?_, ?_, ?_, ?_, ?_⟩
    · rw [List.append_nil]
      exact (List.pairwise_append.mp h.inOrder).1
    · intro i hi
      rw [List.append_nil] at hi
      rw [hlength]
      exact h.known i (List.mem_append_left _ hi)
    · intro i value hmem
      rw [hstates]
      have hfst : i ∈ given.map Prod.fst := List.mem_map_of_mem hmem
      have hout : i ∉ q.waiting := fun hin => absurd (h.before_waiting hfst hin) (Nat.lt_irrefl i)
      simpa [hout] using h.served i value hmem
    · intro i value hgot
      rw [hstates, Option.map_eq_some_iff] at hgot
      obtain ⟨state, hs, heq⟩ := hgot
      split at heq
      · rw [eq_of_settle_eq (fun hended => by cases hended) heq] at hs
        exact h.got i value hs
      · rw [heq] at hs
        exact h.got i value hs
    · intro i hwaits
      rw [hstates, Option.map_eq_some_iff] at hwaits
      obtain ⟨state, hs, heq⟩ := hwaits
      split at heq
      · exact (settle_eq_waiting (fun hended => by cases hended) heq).elim
      · next hout =>
          rw [heq] at hs
          exact absurd (h.waits i hs) hout
    · intro i hmem
      cases hmem
    · intro i found hfound haborted
      rw [hreads, Option.map_eq_some_iff] at hfound
      obtain ⟨old, hold, rfl⟩ := hfound
      split at haborted
      · next hin =>
          rw [if_pos hin]
          exact h.givenUp i old hold (eq_of_settle_eq (fun hended => by cases hended) haborted)
      · next hout =>
          rw [if_neg hout]
          exact h.givenUp i old hold haborted

/-- **One action.** -/
theorem Kept.step (h : Kept q values given) (action : QueueAction α) :
    Kept (q.step action) (values ++ (pushedBy action).toList)
      (given ++ (q.handed? action).toList) := by
  cases action with
  | push value => exact h.push value
  | read signal =>
      simp only [pushedBy, Option.toList_none, List.append_nil]
      exact h.read signal
  | abort signal =>
      simp only [pushedBy, handed?, Option.toList_none, List.append_nil]
      exact h.abort signal
  | close =>
      simp only [pushedBy, handed?, Option.toList_none, List.append_nil]
      exact h.close

/-- **A run.** -/
theorem Kept.after (h : Kept q values given) (actions : List (QueueAction α)) :
    Kept (q.after actions) (values ++ pushed actions) (given ++ handed q actions) := by
  induction actions generalizing q values given with
  | nil => simpa [PullQueue.after, pushed, handed] using h
  | cons action rest ih =>
      have hrest := ih (h.step action)
      have hpushed : pushed (action :: rest) = (pushedBy action).toList ++ pushed rest := by
        unfold pushed
        rw [List.filterMap_cons]
        cases pushedBy action <;> rfl
      rw [hpushed, handed, ← List.append_assoc, ← List.append_assoc]
      exact hrest

/-- A read is answered with nothing only where every value pushed so far has been handed over. -/
theorem Kept.ended (h : Kept q values given) {action : QueueAction α} {i : ℕ}
    (hbefore : q.stateOf i ≠ some .ended) (hafter : (q.step action).stateOf i = some .ended) :
    values = given.map Prod.snd := by
  have hnone : q.buffered = [] := by
    cases action with
    | push value =>
        cases hwaiting : q.waiting with
        | nil =>
            have hsame : (q.push value).reads = q.reads := by
              unfold PullQueue.push
              rw [hwaiting]
            refine absurd ?_ hbefore
            unfold stateOf
            rw [← hsame]
            exact hafter
        | cons j rest => exact h.idle.resolve_left (by simp [hwaiting])
    | read signal =>
        cases hbuffered : q.buffered with
        | nil => rfl
        | cons value rest =>
            have hreads : (q.read signal).reads = q.reads ++ [⟨signal, .got value⟩] := by
              unfold PullQueue.read
              rw [hbuffered]
            have hstate : (q.read signal).stateOf i = some .ended := hafter
            rw [stateOf_snoc _ _ hreads] at hstate
            split at hstate
            · cases hstate
            · exact absurd hstate hbefore
    | abort signal =>
        rcases stateOf_abort q signal i with hsame | hmap
        · exact absurd (hsame.symm.trans hafter) hbefore
        · have hended := hmap.symm.trans hafter
          obtain ⟨state, hs, heq⟩ := Option.map_eq_some_iff.mp hended
          rw [eq_of_settle_eq (fun hgone => by cases hgone) heq] at hs
          exact absurd hs hbefore
    | close =>
        rcases h.idle with hidle | hnone
        · refine absurd ?_ hbefore
          have hsame : q.close.reads = q.reads := by
            unfold PullQueue.close
            split
            · rfl
            · rw [hidle]
              rfl
          unfold stateOf
          rw [← hsame]
          exact hafter
        · exact hnone
  rw [h.order, hnone, List.append_nil]

end Steps

end PullQueue

end SharedOS.Foundation
