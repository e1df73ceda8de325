/-
SharedOS.Foundation.Interpreter — operations carried out by programs of their own.

`interpret` replaces every operation of a program by a program over another interface. A run of the
result is a run of the program, each of its operations standing for a whole run of what carries it
out (`asks_interpret`).

Beside it the operations a program asks in order. A phase is a number; an operation of phase zero is
free, and the others come in strictly growing phases, so that no phase comes twice. The rule for
`interpret` keeps the phases of the program for what carries them out.
-/
import SharedOS.Foundation.Program

namespace SharedOS.Foundation.Program

variable {Op Op' : Type} {Ans : Op → Type} {Ans' : Op' → Type} {ε α β : Type}

/-! ## Carrying out -/

/-- The program, its operations carried out by programs over another interface. -/
def interpret (body : (o : Op) → Program Op' Ans' ε (Ans o)) :
    Program Op Ans ε α → Program Op' Ans' ε α
  | .done a => .done a
  | .throw e => .throw e
  | .ask o next => body o >>= fun x => (next x).interpret body

/-- The second trace is what carrying out the first one asked. -/
inductive CarriedOut (body : (o : Op) → Program Op' Ans' ε (Ans o)) :
    List (Event Ans) → List (Event Ans') → Prop
  | nil : CarriedOut body [] []
  | cons {o : Op} {x : Ans o} {t : List (Event Ans)} {u v : List (Event Ans')} :
      Finishes (body o) u (.ok x) → CarriedOut body t v → CarriedOut body (⟨o, x⟩ :: t) (u ++ v)

variable {body : (o : Op) → Program Op' Ans' ε (Ans o)}

/-- What a sequence is about to ask, its head is, or its rest is after a whole run of the head. -/
theorem asks_bind {p : Program Op Ans ε α} {f : α → Program Op Ans ε β} {t : List (Event Ans)}
    {o : Op} :
    Asks (p >>= f) t o ↔ Asks p t o ∨
      ∃ a t₁ t₂, t = t₁ ++ t₂ ∧ Finishes p t₁ (.ok a) ∧ Asks (f a) t₂ o := by
  induction p generalizing t with
  | done a =>
      constructor
      · exact fun h => .inr ⟨a, [], t, rfl, .here _, h⟩
      · rintro (h | ⟨b, t₁, t₂, rfl, h, ho⟩)
        · exact absurd h not_asks_done
        · obtain ⟨rfl, hb⟩ := finishes_done.mp h
          cases hb
          exact ho
  | throw e =>
      constructor
      · exact fun h => absurd h not_asks_throw
      · rintro (h | ⟨b, t₁, t₂, rfl, h, -⟩)
        · exact absurd h not_asks_throw
        · cases (finishes_throw.mp h).2
  | ask o' next ih =>
      rw [ask_bind, asks_ask, asks_ask]
      constructor
      · rintro (hhere | ⟨x, t', rfl, h⟩)
        · exact .inl (.inl hhere)
        · rcases (ih x).mp h with h | ⟨a, t₁, t₂, rfl, hp, h⟩
          · exact .inl (.inr ⟨x, t', rfl, h⟩)
          · exact .inr ⟨a, ⟨o', x⟩ :: t₁, t₂, rfl, .answer x hp, h⟩
      · rintro ((hhere | ⟨x, t', rfl, h⟩) | ⟨a, t₁, t₂, rfl, hp, h⟩)
        · exact .inl hhere
        · exact .inr ⟨x, t', rfl, (ih x).mpr (.inl h)⟩
        · obtain ⟨x, t', rfl, hnext⟩ := finishes_ask.mp hp
          exact .inr ⟨x, t' ++ t₂, rfl, (ih x).mpr (.inr ⟨a, t', t₂, rfl, hnext, h⟩)⟩

/-- **What is asked stands for what the program asks.** Before it come whole runs of what was
carried out already. -/
theorem asks_interpret {p : Program Op Ans ε α} {t : List (Event Ans')} {o' : Op'}
    (h : Asks (p.interpret body) t o') :
    ∃ u t₁ t₂ o, t = t₁ ++ t₂ ∧ CarriedOut body u t₁ ∧ Asks p u o ∧ Asks (body o) t₂ o' := by
  induction p generalizing t with
  | done a => exact absurd h not_asks_done
  | throw e => exact absurd h not_asks_throw
  | ask o next ih =>
      rcases asks_bind.mp h with h | ⟨x, t₁, t₂, rfl, hrun, h⟩
      · exact ⟨[], [], t, o, rfl, .nil, asks_ask.mpr (.inl ⟨rfl, rfl⟩), h⟩
      · obtain ⟨u, v₁, v₂, o₂, rfl, hcarried, hasks, hbody⟩ := ih x h
        refine ⟨⟨o, x⟩ :: u, t₁ ++ v₁, v₂, o₂, by simp, .cons hrun hcarried, ?_, hbody⟩
        exact asks_ask.mpr (.inr ⟨x, u, rfl, hasks⟩)

/-- An operation carried out has its whole run in the trace. -/
theorem CarriedOut.run_of_mem {t : List (Event Ans)} {u : List (Event Ans')}
    (h : CarriedOut body t u) {o : Op} {x : Ans o} (hmem : ⟨o, x⟩ ∈ t) :
    ∃ v, Finishes (body o) v (.ok x) ∧ v ⊆ u := by
  induction h with
  | nil => exact absurd hmem List.not_mem_nil
  | cons hrun _ ih =>
      rcases List.mem_cons.mp hmem with heq | hmem
      · cases heq
        exact ⟨_, hrun, List.subset_append_left _ _⟩
      · obtain ⟨v, hv, hsub⟩ := ih hmem
        exact ⟨v, hv, List.subset_append_of_subset_right _ hsub⟩

/-- Whatever is in the trace was asked carrying out one of the operations. -/
theorem CarriedOut.mem {t : List (Event Ans)} {u : List (Event Ans')} (h : CarriedOut body t u)
    {e : Event Ans'} (he : e ∈ u) :
    ∃ (o : Op) (x : Ans o) (v : List (Event Ans')), ⟨o, x⟩ ∈ t ∧ Finishes (body o) v (.ok x) ∧
      e ∈ v ∧ v ⊆ u := by
  induction h with
  | nil => exact absurd he List.not_mem_nil
  | cons hrun _ ih =>
      rcases List.mem_append.mp he with he | he
      · exact ⟨_, _, _, List.mem_cons_self, hrun, he, List.subset_append_left _ _⟩
      · obtain ⟨o, x, v, hmem, hv, he, hsub⟩ := ih he
        exact ⟨o, x, v, List.mem_cons_of_mem _ hmem, hv, he,
          List.subset_append_of_subset_right _ hsub⟩

theorem Uses.interpret {S : Op → Prop} {S' : Op' → Prop} {p : Program Op Ans ε α} (hp : Uses S p)
    (hbody : ∀ o, S o → Uses S' (body o)) : Uses S' (p.interpret body) := by
  induction p with
  | done a => trivial
  | throw e => trivial
  | ask o next ih => exact (hbody o hp.1).bind fun x => ih x (hp.2 x)

/-! ## Phases -/

/-- From phase `n` on, the phases grow. -/
def InPhases (phase : Op → ℕ) : ℕ → Program Op Ans ε α → Prop
  | _, .done _ => True
  | _, .throw _ => True
  | n, .ask o next =>
    (phase o = 0 ∧ ∀ x, InPhases phase n (next x)) ∨
      (n < phase o ∧ ∀ x, InPhases phase (phase o) (next x))

section Phases

variable {phase : Op → ℕ} {phase' : Op' → ℕ} {m n : ℕ}

@[simp] theorem inPhases_done (a : α) : InPhases phase n (.done a : Program Op Ans ε α) := trivial

@[simp] theorem inPhases_throw (e : ε) : InPhases phase n (.throw e : Program Op Ans ε α) :=
  trivial

theorem inPhases_perform_bind {o : Op} {f : Ans o → Program Op Ans ε β} :
    InPhases phase n (perform o >>= f) ↔
      (phase o = 0 ∧ ∀ x, InPhases phase n (f x)) ∨
        (n < phase o ∧ ∀ x, InPhases phase (phase o) (f x)) := Iff.rfl

/-- A program that may start late may start early. -/
theorem InPhases.mono {p : Program Op Ans ε α} (hp : InPhases phase m p) (h : n ≤ m) :
    InPhases phase n p := by
  induction p generalizing n m with
  | done a => trivial
  | throw e => trivial
  | ask o next ih =>
      rcases hp with ⟨hfree, hnext⟩ | ⟨hlater, hnext⟩
      · exact .inl ⟨hfree, fun x => ih x (hnext x) h⟩
      · exact .inr ⟨by omega, hnext⟩

/-- A free part first. -/
theorem Uses.inPhases_bind {p : Program Op Ans ε α} {f : α → Program Op Ans ε β}
    (hp : Uses (fun o => phase o = 0) p) (hf : ∀ a, InPhases phase n (f a)) :
    InPhases phase n (p >>= f) := by
  induction p with
  | done a => exact hf a
  | throw e => trivial
  | ask o next ih => exact .inl ⟨hp.1, fun x => ih x (hp.2 x)⟩

theorem Uses.inPhases {p : Program Op Ans ε α} (hp : Uses (fun o => phase o = 0) p) :
    InPhases phase n p := by
  induction p with
  | done a => trivial
  | throw e => trivial
  | ask o next ih => exact .inl ⟨hp.1, fun x => ih x (hp.2 x)⟩

/-- **The rule for sequencing.** A head that stays within phase `m`, and a rest from there on. -/
theorem InPhases.bind {p : Program Op Ans ε α} {f : α → Program Op Ans ε β}
    (hp : InPhases phase n p) (hwithin : Uses (fun o => phase o ≤ m) p) (h : n ≤ m)
    (hf : ∀ a, InPhases phase m (f a)) : InPhases phase n (p >>= f) := by
  induction p generalizing n with
  | done a => exact (hf a).mono h
  | throw e => trivial
  | ask o next ih =>
      rcases hp with ⟨hfree, hnext⟩ | ⟨hlater, hnext⟩
      · exact .inl ⟨hfree, fun x => ih x (hnext x) (hwithin.2 x) h⟩
      · exact .inr ⟨hlater, fun x => ih x (hnext x) (hwithin.2 x) hwithin.1⟩

/-- The phases of a trace, the free operations left out. -/
def phasesOf (phase : Op → ℕ) (t : List (Event Ans)) : List ℕ :=
  (t.map fun e => phase e.1).filter (0 < ·)

/-- **Along every run the phases grow.** -/
theorem InPhases.trace {p q : Program Op Ans ε α} {t : List (Event Ans)} (hp : InPhases phase n p)
    (h : Reaches p t q) : List.Pairwise (· < ·) (n :: phasesOf phase t) := by
  induction h generalizing n with
  | here p => exact List.pairwise_singleton _ _
  | @answer o next t q x _ ih =>
      unfold phasesOf
      rw [List.map_cons, List.filter_cons]
      rcases hp with ⟨hfree, hnext⟩ | ⟨hlater, hnext⟩
      · rw [if_neg (by simp [hfree])]
        exact ih (hnext x)
      · rw [if_pos (by simpa using Nat.zero_lt_of_lt hlater)]
        have hrest : List.Pairwise (· < ·) (phase o :: phasesOf phase t) := ih (hnext x)
        refine List.pairwise_cons.mpr ⟨fun m hm => ?_, hrest⟩
        rcases List.mem_cons.mp hm with rfl | hm
        · exact hlater
        · exact hlater.trans (List.rel_of_pairwise_cons hrest hm)

/-- No phase comes twice. -/
theorem InPhases.count_le_one {p q : Program Op Ans ε α} {t : List (Event Ans)}
    (hp : InPhases phase n p) (h : Reaches p t q) (hm : 0 < m) :
    t.countP (fun e => phase e.1 = m) ≤ 1 := by
  have hnodup : (phasesOf phase t).Nodup :=
    (List.Pairwise.of_cons (hp.trace h)).imp fun hlt => Nat.ne_of_lt hlt
  have hcount := List.nodup_iff_count.mp hnodup m
  unfold phasesOf at hcount
  rw [List.count_filter (by simpa using hm), List.count, List.countP_map] at hcount
  refine le_trans (le_of_eq ?_) hcount
  exact List.countP_congr fun e _ => by simp

/-- What is asked in one phase is asked by one event. -/
theorem InPhases.eq_of_phase {p q : Program Op Ans ε α} {t : List (Event Ans)}
    (hp : InPhases phase n p) (h : Reaches p t q) {e e' : Event Ans} (he : e ∈ t) (he' : e' ∈ t)
    (hphase : phase e.1 = phase e'.1) (hpos : 0 < phase e.1) : e = e' := by
  have hcount := hp.count_le_one h hpos
  rw [List.countP_eq_length_filter] at hcount
  have hmem : e ∈ t.filter fun e' => phase e'.1 = phase e.1 := List.mem_filter.mpr ⟨he, by simp⟩
  have hmem' : e' ∈ t.filter fun e' => phase e'.1 = phase e.1 :=
    List.mem_filter.mpr ⟨he', by simp [hphase]⟩
  obtain ⟨only, honly⟩ := List.length_eq_one_iff.mp
    (le_antisymm hcount (List.length_pos_of_mem hmem))
  rw [honly] at hmem hmem'
  rw [List.mem_singleton.mp hmem, List.mem_singleton.mp hmem']

/-- **The rule for carrying out.** What carries out an operation asks within its phase. -/
theorem InPhases.interpret {p : Program Op Ans ε α} (hp : InPhases phase n p)
    (hwithin : ∀ o, Uses (fun o' => phase' o' ≤ phase o) (body o))
    (hbody : ∀ o m, m < phase o → InPhases phase' m (body o)) :
    InPhases phase' n (p.interpret body) := by
  induction p generalizing n with
  | done a => trivial
  | throw e => trivial
  | ask o next ih =>
      rcases hp with ⟨hfree, hnext⟩ | ⟨hlater, hnext⟩
      · have huses : Uses (fun o' => phase' o' = 0) (body o) :=
          (hwithin o).mono fun o' h => by omega
        exact huses.inPhases_bind fun x => ih x (hnext x)
      · exact (hbody o n hlater).bind (hwithin o) hlater.le fun x => ih x (hnext x)

end Phases

end SharedOS.Foundation.Program
