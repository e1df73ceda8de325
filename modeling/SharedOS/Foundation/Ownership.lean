/-
SharedOS.Foundation.Ownership — cells that belong to the thread that drew their reference.

An object hands out references, each of them once, and keeps cells under keys, each key under one
reference. Where the threads of a pool touch only cells of references they have drawn themselves,
what a thread reads it has written itself, however the threads are interleaved (`pool_owned`).
-/
import SharedOS.Foundation.Interleaving
import SharedOS.Foundation.Updates

namespace SharedOS.Foundation

/-- The cells of an object, and what an answered operation does to them. -/
structure Cells (σ κ ν : Type) {Op : Type} (Ans : Op → Type) where
  holds : σ → κ → Option ν
  nextReference : σ → ℕ
  owner : κ → ℕ
  draws : Event Ans → Option ℕ
  reads : Event Ans → Option (κ × ν)
  writes : Event Ans → Option (κ × ν)

namespace Cells

variable {σ τ κ ν Op : Type} {Ans : Op → Type} {ε α : Type}

/-- The object serves the cells as they are meant. -/
structure KeptBy (cells : Cells σ κ ν Ans) (serve : Server σ Ans) : Prop where
  drawn : ∀ {object o object' x r}, serve object o = some (object', x) →
    cells.draws ⟨o, x⟩ = some r →
      r = cells.nextReference object ∧ r < cells.nextReference object'
  grows : ∀ {object o object' x}, serve object o = some (object', x) →
    cells.nextReference object ≤ cells.nextReference object'
  held : ∀ {object o object' x key v}, serve object o = some (object', x) →
    cells.holds object' key = some v →
      cells.holds object key = some v ∨ cells.writes ⟨o, x⟩ = some (key, v)
  answered : ∀ {object o object' x key v}, serve object o = some (object', x) →
    cells.reads ⟨o, x⟩ = some (key, v) → cells.holds object key = some v
  unserved : ∀ {object o}, serve object o = none →
    ∀ x, cells.draws ⟨o, x⟩ = none ∧ cells.reads ⟨o, x⟩ = none ∧ cells.writes ⟨o, x⟩ = none

/-- The event reads or writes the cell. -/
def Touches (cells : Cells σ κ ν Ans) (e : Event Ans) (key : κ) : Prop :=
  ∃ v, cells.reads e = some (key, v) ∨ cells.writes e = some (key, v)

/-- The reference has been drawn in the trace. -/
def Drawn (cells : Cells σ κ ν Ans) (r : ℕ) (t : List (Event Ans)) : Prop :=
  ∃ e ∈ t, cells.draws e = some r

/-- A program touches only cells of references it has drawn. -/
def Private (cells : Cells σ κ ν Ans) (p : Program Op Ans ε α) : Prop :=
  ∀ t o, Program.Asks p t o → ∀ x key, cells.Touches ⟨o, x⟩ key → cells.Drawn (cells.owner key) t

/-- Whatever the trace reads, it has written before. -/
def ReadsOwn (cells : Cells σ κ ν Ans) (t : List (Event Ans)) : Prop :=
  ∀ before e, before ++ [e] <+: t → ∀ key v, cells.reads e = some (key, v) →
    ∃ e' ∈ before, cells.writes e' = some (key, v)

variable {cells : Cells σ κ ν Ans} {serve : Server σ Ans} {body : τ → Program Op Ans ε α}

theorem Drawn.append {r : ℕ} {t : List (Event Ans)} (h : cells.Drawn r t) (u : List (Event Ans)) :
    cells.Drawn r (t ++ u) := by
  obtain ⟨e, he, hdraws⟩ := h
  exact ⟨e, List.mem_append_left u he, hdraws⟩

theorem readsOwn_nil : cells.ReadsOwn [] := by
  intro before e h
  exact absurd (List.prefix_nil.mp h) (by simp)

theorem ReadsOwn.snoc {t : List (Event Ans)} {e : Event Ans} (h : cells.ReadsOwn t)
    (he : ∀ key v, cells.reads e = some (key, v) → ∃ e' ∈ t, cells.writes e' = some (key, v)) :
    cells.ReadsOwn (t ++ [e]) := by
  intro before e' hbegins
  rcases List.prefix_concat_iff.mp hbegins with heq | hbegins
  · obtain ⟨rfl, rfl⟩ := List.concat_inj.mp (by simpa using heq)
    exact he
  · exact h before e' hbegins

/-- What a trace reads is among what it writes. -/
theorem ReadsOwn.written {t before : List (Event Ans)} (h : cells.ReadsOwn t) (hbefore : before <+: t)
    {e : Event Ans} (he : e ∈ before) {key : κ} {v : ν} (hreads : cells.reads e = some (key, v)) :
    ∃ e' ∈ before, cells.writes e' = some (key, v) := by
  obtain ⟨first, rest, rfl⟩ := List.append_of_mem he
  have hbegins : first ++ [e] <+: first ++ e :: rest := ⟨rest, by simp⟩
  obtain ⟨e', he', hwrites⟩ := h first e (hbegins.trans hbefore) key v hreads
  exact ⟨e', List.mem_append_left _ he', hwrites⟩

/-- What holds of a pool whose threads keep to their own references. -/
structure Owned (cells : Cells σ κ ν Ans) (body : τ → Program Op Ans ε α)
    (pool : Pool σ τ Ans ε α) : Prop where
  reaches : ∀ t ∈ pool.threads, Program.Reaches (body t.task) t.asked t.rest
  below : ∀ t ∈ pool.threads, ∀ r, cells.Drawn r t.asked → r < cells.nextReference pool.object
  /-- A reference is one thread's. -/
  once : ∀ {i j : ℕ} {t t' : Thread τ Ans ε α} {r : ℕ}, pool.threads[i]? = some t →
    pool.threads[j]? = some t' → cells.Drawn r t.asked → cells.Drawn r t'.asked → i = j
  /-- A cell was filled by the thread its reference is of. -/
  filled : ∀ key v, cells.holds pool.object key = some v → ∃ (i : ℕ) (t : Thread τ Ans ε α),
    pool.threads[i]? = some t ∧ cells.Drawn (cells.owner key) t.asked ∧
      ∃ e ∈ t.asked, cells.writes e = some (key, v)
  own : ∀ t ∈ pool.threads, cells.ReadsOwn t.asked

variable {pool pool' : Pool σ τ Ans ε α} {label : PoolLabel τ Ans}

theorem Owned.start (h : cells.Owned body pool) (task : τ) :
    cells.Owned body { pool with
      threads := pool.threads ++ [{ task, asked := [], rest := body task }] } := by
  have hempty : ∀ r, ¬ cells.Drawn r [] := fun r ⟨e, he, _⟩ => List.not_mem_nil he
  constructor
  · intro t ht
    rcases List.mem_append.mp ht with ht | ht
    · exact h.reaches t ht
    · rw [List.mem_singleton.mp ht]
      exact .here _
  · intro t ht r hdrawn
    rcases List.mem_append.mp ht with ht | ht
    · exact h.below t ht r hdrawn
    · rw [List.mem_singleton.mp ht] at hdrawn
      exact absurd hdrawn (hempty r)
  · intro i j t t' r hi hj ht ht'
    rcases getElem?_append_singleton hi with hi | ⟨-, rfl⟩
    · rcases getElem?_append_singleton hj with hj | ⟨-, rfl⟩
      · exact h.once hi hj ht ht'
      · exact absurd ht' (hempty r)
    · exact absurd ht (hempty r)
  · intro key v hholds
    obtain ⟨i, t, hi, hdrawn, hwritten⟩ := h.filled key v hholds
    refine ⟨i, t, ?_, hdrawn, hwritten⟩
    rw [List.getElem?_append_left (List.getElem?_eq_some_iff.mp hi).1]
    exact hi
  · intro t ht
    rcases List.mem_append.mp ht with ht | ht
    · exact h.own t ht
    · rw [List.mem_singleton.mp ht]
      exact readsOwn_nil

section Answer

variable {i : ℕ} {t : Thread τ Ans ε α} {o : Op} {next : Ans o → Program Op Ans ε α} {object : σ}
  {x : Ans o}

/-- A reference drawn in a trace was drawn before, or it is the next one of the object. -/
theorem drawn_snoc (hkept : cells.KeptBy serve)
    (hserved : serve pool.object o = some (object, x) ∨
      serve pool.object o = none ∧ object = pool.object) {r : ℕ}
    (hdrawn : cells.Drawn r (t.asked ++ [⟨o, x⟩])) :
    cells.Drawn r t.asked ∨
      r = cells.nextReference pool.object ∧ r < cells.nextReference object := by
  obtain ⟨e, he, hdraws⟩ := hdrawn
  rcases List.mem_append.mp he with he | he
  · exact .inl ⟨e, he, hdraws⟩
  · rw [List.mem_singleton.mp he] at hdraws
    rcases hserved with hserve | ⟨hserve, -⟩
    · exact .inr (hkept.drawn hserve hdraws)
    · rw [(hkept.unserved hserve x).1] at hdraws
      cases hdraws

/-- **One answer keeps it.** -/
theorem Owned.answer (h : cells.Owned body pool) (hkept : cells.KeptBy serve)
    (hprivate : ∀ task, cells.Private (body task)) (hthread : pool.threads[i]? = some t)
    (hrest : t.rest = .ask o next)
    (hserved : serve pool.object o = some (object, x) ∨
      serve pool.object o = none ∧ object = pool.object) :
    cells.Owned body
      { object, threads := pool.threads.set i (t.resume ⟨o, x⟩ (next x)) } := by
  have ht := List.mem_of_getElem? hthread
  have hreaches := h.reaches t ht
  rw [hrest] at hreaches
  have htouched : ∀ key, cells.Touches ⟨o, x⟩ key → cells.Drawn (cells.owner key) t.asked :=
    hprivate t.task t.asked o ⟨next, hreaches⟩ x
  have hgrows : cells.nextReference pool.object ≤ cells.nextReference object := by
    rcases hserved with hserve | ⟨-, rfl⟩
    · exact hkept.grows hserve
    · exact le_rfl
  have hlength : i < pool.threads.length := (List.getElem?_eq_some_iff.mp hthread).1
  have hown : ∀ key v, cells.reads ⟨o, x⟩ = some (key, v) →
      ∃ e ∈ t.asked, cells.writes e = some (key, v) := by
    intro key v hreads
    rcases hserved with hserve | ⟨hserve, -⟩
    · -- the cell was filled by the thread that drew its reference, and that is this one
      obtain ⟨j, t', hj, hdrawn, hwritten⟩ :=
        h.filled key v (hkept.answered hserve hreads)
      obtain rfl := h.once hthread hj (htouched key ⟨v, .inl hreads⟩) hdrawn
      rw [hthread] at hj
      cases hj
      exact hwritten
    · rw [(hkept.unserved hserve x).2.1] at hreads
      cases hreads
  constructor
  · intro t' ht'
    rcases List.mem_or_eq_of_mem_set ht' with ht' | rfl
    · exact h.reaches t' ht'
    · exact hreaches.snoc x
  · intro t' ht' r hdrawn
    show r < cells.nextReference object
    rcases List.mem_or_eq_of_mem_set ht' with ht' | rfl
    · exact lt_of_lt_of_le (h.below t' ht' r hdrawn) hgrows
    · rcases drawn_snoc hkept hserved hdrawn with hdrawn | ⟨-, hlt⟩
      · exact lt_of_lt_of_le (h.below t ht r hdrawn) hgrows
      · exact hlt
  · intro j k t₁ t₂ r hj hk h₁ h₂
    rcases getElem?_set_cases hj with ⟨rfl, rfl⟩ | ⟨-, hj'⟩
    · rcases getElem?_set_cases hk with ⟨rfl, rfl⟩ | ⟨-, hk'⟩
      · rfl
      · rcases drawn_snoc hkept hserved h₁ with h₁ | ⟨rfl, -⟩
        · exact h.once hthread hk' h₁ h₂
        · exact absurd (h.below t₂ (List.mem_of_getElem? hk') _ h₂) (lt_irrefl _)
    · rcases getElem?_set_cases hk with ⟨rfl, rfl⟩ | ⟨-, hk'⟩
      · rcases drawn_snoc hkept hserved h₂ with h₂ | ⟨rfl, -⟩
        · exact h.once hj' hthread h₁ h₂
        · exact absurd (h.below t₁ (List.mem_of_getElem? hj') _ h₁) (lt_irrefl _)
      · exact h.once hj' hk' h₁ h₂
  · intro key v hholds
    have hself : (pool.threads.set i (t.resume ⟨o, x⟩ (next x)))[i]? =
        some (t.resume ⟨o, x⟩ (next x)) := List.getElem?_set_self hlength
    have hbefore : cells.holds pool.object key = some v →
        ∃ (j : ℕ) (t' : Thread τ Ans ε α),
          (pool.threads.set i (t.resume ⟨o, x⟩ (next x)))[j]? = some t' ∧
          cells.Drawn (cells.owner key) t'.asked ∧ ∃ e ∈ t'.asked, cells.writes e = some (key, v) := by
      intro hholds
      obtain ⟨j, t', hj, hdrawn, e, he, hwrites⟩ := h.filled key v hholds
      by_cases hij : i = j
      · subst hij
        rw [hthread] at hj
        cases hj
        exact ⟨i, _, hself, hdrawn.append _, e, List.mem_append_left _ he, hwrites⟩
      · exact ⟨j, t', by rw [List.getElem?_set_ne hij, hj], hdrawn, e, he, hwrites⟩
    rcases hserved with hserve | ⟨-, rfl⟩
    · rcases hkept.held hserve hholds with hheld | hwrites
      · exact hbefore hheld
      · exact ⟨i, _, hself, (htouched key ⟨v, .inr hwrites⟩).append _, ⟨o, x⟩,
          List.mem_append_right _ List.mem_cons_self, hwrites⟩
    · exact hbefore hholds
  · intro t' ht'
    rcases List.mem_or_eq_of_mem_set ht' with ht' | rfl
    · exact h.own t' ht'
    · exact (h.own t ht).snoc hown

end Answer

/-- **What a thread reads, it has written itself.** -/
theorem pool_owned (hkept : cells.KeptBy serve) (hprivate : ∀ task, cells.Private (body task))
    {object : σ} (hempty : ∀ key, cells.holds object key = none) {labels : List (PoolLabel τ Ans)}
    (h : run (poolStep serve body) (Pool.over object) labels = some pool) :
    cells.Owned body pool := by
  refine run_invariant (I := fun pool => cells.Owned body pool) (fun before l after hbefore hstep => ?_) ?_ h
  · rcases poolStep_cases hstep with ⟨task, rfl, rfl⟩ |
      ⟨i, reply, t, o, next, object', x, rfl, hthread, hrest, hrespond, rfl⟩
    · exact hbefore.start task
    · exact hbefore.answer hkept hprivate hthread hrest (respond_cases hrespond)
  · constructor
    · exact fun _ ht => absurd ht List.not_mem_nil
    · exact fun _ ht => absurd ht List.not_mem_nil
    · exact fun {i} _ _ _ _ hi => absurd hi (by simp [Pool.over])
    · intro key v hholds
      rw [show (Pool.over object : Pool σ τ Ans ε α).object = object from rfl, hempty key] at hholds
      cases hholds
    · exact fun _ ht => absurd ht List.not_mem_nil

end Cells

end SharedOS.Foundation
