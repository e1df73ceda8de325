/-
SharedOS.Foundation.Interleaving — programs that run interleaved over one shared object.

A pool holds an object and the threads started so far. A thread is a program with the trace it has
run. In one step a thread is given the answer it waits for and runs on to its next question: the
object answers the operations it serves and changes with them, and every other operation is
answered as the label says. So a statement about every run is a statement about every interleaving
and every behaviour of what the object does not serve.

Two rules. Each thread runs as it would alone (`pool_reaches`), so what holds of every run of a
program holds of every thread. And an account of the object that moves with the operations it serves
is balanced by what the threads have been answered (`pool_ledger`).
-/
import SharedOS.Foundation.Program
import SharedOS.Foundation.Run
import Mathlib.Algebra.BigOperators.Group.List.Basic
import Mathlib.Algebra.Order.Group.Nat
import Mathlib.Algebra.Ring.Nat

namespace SharedOS.Foundation

/-- A program on its way, with the trace so far and the task it was started for. -/
structure Thread (τ : Type) {Op : Type} (Ans : Op → Type) (ε α : Type) where
  task : τ
  asked : List (Event Ans)
  rest : Program Op Ans ε α

/-- The object and every thread ever started, in order of their starts. -/
structure Pool (σ τ : Type) {Op : Type} (Ans : Op → Type) (ε α : Type) where
  object : σ
  threads : List (Thread τ Ans ε α)

/-- A step of the pool: a program starts, or a thread is answered. -/
inductive PoolLabel (τ : Type) {Op : Type} (Ans : Op → Type) where
  | start (task : τ)
  | answer (thread : ℕ) (reply : (o : Op) → Ans o)

/-- What an object answers, for the operations it serves. -/
abbrev Server (σ : Type) {Op : Type} (Ans : Op → Type) := σ → (o : Op) → Option (σ × Ans o)

section Step

variable {σ τ Op : Type} {Ans : Op → Type} {ε α : Type}

/-- The answer to an operation, and the object after it. -/
def respond (serve : Server σ Ans) (object : σ) (o : Op) (reply : Ans o) : σ × Ans o :=
  (serve object o).getD (object, reply)

/-- The thread, one answer on. -/
def Thread.resume (t : Thread τ Ans ε α) (e : Event Ans) (rest : Program Op Ans ε α) :
    Thread τ Ans ε α :=
  { t with asked := t.asked ++ [e], rest }

/-- One step of the programs over the object they share. -/
def poolStep (serve : Server σ Ans) (body : τ → Program Op Ans ε α) (pool : Pool σ τ Ans ε α) :
    PoolLabel τ Ans → Option (Pool σ τ Ans ε α)
  | .start task =>
    some { pool with threads := pool.threads ++ [{ task, asked := [], rest := body task }] }
  | .answer i reply =>
    match pool.threads[i]? with
    | none => none
    | some t =>
      match t.rest with
      | .done _ => none
      | .throw _ => none
      | .ask o next =>
        let answered := respond serve pool.object o (reply o)
        some
          { object := answered.1
            threads := pool.threads.set i (t.resume ⟨o, answered.2⟩ (next answered.2)) }

/-- A pool in which nothing has been started. -/
def Pool.over (object : σ) : Pool σ τ Ans ε α where
  object := object
  threads := []

variable {serve : Server σ Ans} {body : τ → Program Op Ans ε α} {pool pool' : Pool σ τ Ans ε α}
  {label : PoolLabel τ Ans} {labels : List (PoolLabel τ Ans)}

/-- **What a step does**: it starts a thread, or it answers one that was asking. -/
theorem poolStep_cases (h : poolStep serve body pool label = some pool') :
    (∃ task, label = .start task ∧
      pool' = { pool with
        threads := pool.threads ++ [{ task, asked := [], rest := body task }] }) ∨
    ∃ i reply t o next object x, label = .answer i reply ∧ pool.threads[i]? = some t ∧
      t.rest = .ask o next ∧ respond serve pool.object o (reply o) = (object, x) ∧
      pool' = { object, threads := pool.threads.set i (t.resume ⟨o, x⟩ (next x)) } := by
  cases label with
  | start task => exact .inl ⟨task, rfl, (Option.some.inj h).symm⟩
  | answer i reply =>
      dsimp only [poolStep] at h
      cases hthread : pool.threads[i]? with
      | none =>
          rw [hthread] at h
          cases h
      | some t =>
          rw [hthread] at h
          dsimp only at h
          cases hrest : t.rest with
          | done a =>
              rw [hrest] at h
              cases h
          | throw e =>
              rw [hrest] at h
              cases h
          | ask o next =>
              rw [hrest] at h
              exact .inr ⟨i, reply, t, o, next, _, _, rfl, hthread, hrest, rfl,
                (Option.some.inj h).symm⟩

/-- An answer comes from the object, or leaves it as it is. -/
theorem respond_cases {object object' : σ} {o : Op} {reply x : Ans o}
    (h : respond serve object o reply = (object', x)) :
    serve object o = some (object', x) ∨ (serve object o = none ∧ object' = object) := by
  unfold respond at h
  cases hserve : serve object o with
  | none =>
      rw [hserve] at h
      exact .inr ⟨rfl, (congrArg Prod.fst h).symm⟩
  | some answered =>
      rw [hserve] at h
      exact .inl (congrArg some h)

/-! ## Each thread by itself -/

/-- **Each thread runs as it would alone**, and was started in the run. -/
theorem pool_reaches {object : σ} (h : run (poolStep serve body) (Pool.over object) labels =
      some pool) :
    ∀ t ∈ pool.threads, Program.Reaches (body t.task) t.asked t.rest ∧
      PoolLabel.start t.task ∈ labels := by
  have hmeet : StepsMeet (poolStep serve body) (fun _ l => l ∈ labels) (Pool.over object) labels :=
    StepsMeet.of_forall fun l hl _ => hl
  refine run_invariant_where (I := fun pool : Pool σ τ Ans ε α => ∀ t ∈ pool.threads,
    Program.Reaches (body t.task) t.asked t.rest ∧ PoolLabel.start t.task ∈ labels)
    (fun before l after hbefore hl hstep t ht => ?_) (fun _ ht => absurd ht List.not_mem_nil)
    hmeet h
  rcases poolStep_cases hstep with ⟨task, rfl, rfl⟩ |
    ⟨i, reply, t', o, next, object, x, rfl, hthread, hrest, -, rfl⟩
  · rcases List.mem_append.mp ht with ht | ht
    · exact hbefore t ht
    · obtain rfl := List.mem_singleton.mp ht
      exact ⟨.here _, hl⟩
  · rcases List.mem_or_eq_of_mem_set ht with ht | rfl
    · exact hbefore t ht
    · obtain ⟨hreaches, hstarted⟩ := hbefore t' (List.mem_of_getElem? hthread)
      rw [hrest] at hreaches
      exact ⟨hreaches.snoc x, hstarted⟩

/-! ## The ledger -/

/-- What a thread has been charged. -/
def Thread.charged (price : Event Ans → ℕ) (t : Thread τ Ans ε α) : ℕ := (t.asked.map price).sum

/-- What all threads together have been charged. -/
def Pool.charged (price : Event Ans → ℕ) (pool : Pool σ τ Ans ε α) : ℕ :=
  (pool.threads.map (Thread.charged price)).sum

@[simp] theorem Thread.charged_resume (price : Event Ans → ℕ) (t : Thread τ Ans ε α)
    (e : Event Ans) (rest : Program Op Ans ε α) :
    (t.resume e rest).charged price = t.charged price + price e := by
  simp [Thread.charged, Thread.resume]

/-- Replacing one item moves a sum by the difference. -/
theorem sum_map_set {β : Type} (f : β → ℕ) {items : List β} {i : ℕ} {a b : β}
    (h : items[i]? = some a) :
    ((items.set i b).map f).sum + f a = (items.map f).sum + f b := by
  induction items generalizing i with
  | nil => simp at h
  | cons item rest ih =>
      cases i with
      | zero =>
          obtain rfl : item = a := by simpa using h
          simp only [List.set_cons_zero, List.map_cons, List.sum_cons]
          omega
      | succ i =>
          have hrest := ih (i := i) (by simpa using h)
          simp only [List.set_cons_succ, List.map_cons, List.sum_cons]
          omega

/-- A sum of ones and zeros counts the ones. -/
theorem sum_map_eq_countP {β : Type} {f : β → ℕ} {p : β → Bool} {items : List β}
    (h : ∀ b ∈ items, f b = if p b then 1 else 0) : (items.map f).sum = items.countP p := by
  induction items with
  | nil => rfl
  | cons item rest ih =>
      rw [List.map_cons, List.sum_cons, List.countP_cons, h item List.mem_cons_self,
        ih fun b hb => h b (List.mem_cons_of_mem _ hb), Nat.add_comm]

/-- **The ledger is balanced.** An account that every served operation moves by its price, and that
no other operation has a price in, stands at what it started with and the threads were charged. -/
theorem pool_ledger (account : σ → ℕ) (price : Event Ans → ℕ)
    (hserved : ∀ object o object' x, serve object o = some (object', x) →
      account object' = account object + price ⟨o, x⟩)
    (hfree : ∀ object o x, serve object o = none → price ⟨o, x⟩ = 0) {object : σ}
    (h : run (poolStep serve body) (Pool.over object) labels = some pool) :
    account pool.object = account object + pool.charged price := by
  have hinvariant := run_invariant
    (I := fun pool => account pool.object = account object + pool.charged price)
    (fun before l after hbefore hstep => ?_) (by simp [Pool.over, Pool.charged]) h
  · exact hinvariant
  rcases poolStep_cases hstep with ⟨task, rfl, rfl⟩ |
    ⟨i, reply, t, o, next, object', x, rfl, hthread, -, hrespond, rfl⟩
  · simpa [Pool.charged, Thread.charged] using hbefore
  · have hmoved : account object' = account before.object + price ⟨o, x⟩ := by
      rcases respond_cases hrespond with hserve | ⟨hserve, rfl⟩
      · exact hserved _ _ _ _ hserve
      · rw [hfree _ _ x hserve, Nat.add_zero]
    have hsum := sum_map_set (Thread.charged price) (b := t.resume ⟨o, x⟩ (next x)) hthread
    rw [Thread.charged_resume] at hsum
    show account object' = account object + _
    unfold Pool.charged at hbefore ⊢
    dsimp only
    omega

end Step

end SharedOS.Foundation
