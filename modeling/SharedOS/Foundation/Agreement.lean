/-
SharedOS.Foundation.Agreement — two programs that are one program as long as the environment keeps
its promise.

`p.Agrees A q` compares two programs answer by answer. They ask the same operation, and after every
answer that keeps `A` they agree again, until both end alike. What follows an answer that breaks `A`
is left open. So a layer that only carries values across, and carries some of them wrongly, agrees
with the direct way on exactly the runs that stay clear of those values. And one program, in
surroundings that stay as they are, has one run.
-/
import SharedOS.Foundation.Program

namespace SharedOS.Foundation

namespace Program

variable {Op : Type} {Ans : Op → Type} {ε ε' α β : Type} {A : Event Ans → Prop}

/-- The two ask the same and end alike, as long as every answer keeps `A`. -/
inductive Agrees (A : Event Ans → Prop) : Program Op Ans ε α → Program Op Ans ε α → Prop
  | done (a : α) : Agrees A (.done a) (.done a)
  | throw (e : ε) : Agrees A (.throw e) (.throw e)
  | ask {o : Op} {next next' : Ans o → Program Op Ans ε α}
      (h : ∀ x, A ⟨o, x⟩ → Agrees A (next x) (next' x)) : Agrees A (.ask o next) (.ask o next')

theorem Agrees.refl (p : Program Op Ans ε α) : Agrees A p p := by
  induction p with
  | done a => exact .done a
  | throw e => exact .throw e
  | ask o next ih => exact .ask fun x _ => ih x

theorem Agrees.symm {p q : Program Op Ans ε α} (h : Agrees A p q) : Agrees A q p := by
  induction h with
  | done a => exact .done a
  | throw e => exact .throw e
  | ask _ ih => exact .ask ih

/-- **Agreement composes**: heads that agree, followed by rests that agree on what was returned. -/
theorem Agrees.bind {p q : Program Op Ans ε α} {f g : α → Program Op Ans ε β}
    (hp : Agrees A p q) (hf : ∀ a, Agrees A (f a) (g a)) : Agrees A (p >>= f) (q >>= g) := by
  induction hp with
  | done a => exact hf a
  | throw e => exact .throw e
  | ask _ ih => exact .ask ih

/-- The rests need agree only on what the head returns under the promise. -/
theorem Agrees.bind_yields {P : α → Prop} {p q : Program Op Ans ε α}
    {f g : α → Program Op Ans ε β} (hp : Agrees A p q) (hreturns : Yields A P p)
    (hf : ∀ a, P a → Agrees A (f a) (g a)) : Agrees A (p >>= f) (q >>= g) := by
  induction hp with
  | done a => exact hf a hreturns
  | throw e => exact .throw e
  | ask _ ih => exact .ask fun x hx => ih x hx (hreturns x hx)

theorem Agrees.attempt {p q : Program Op Ans ε α} (h : Agrees A p q) :
    Agrees A (p.attempt : Program Op Ans ε' (Except ε α)) q.attempt := by
  induction h with
  | done a => exact .done _
  | throw e => exact .done _
  | ask _ ih => exact .ask ih

/-- Along a trace that keeps the promise, what one of the two comes to, the other comes to. -/
theorem Agrees.finishes {p q : Program Op Ans ε α} (h : Agrees A p q) {t : List (Event Ans)}
    {r : Except ε α} (ht : ∀ e ∈ t, A e) (hp : Finishes p t r) : Finishes q t r := by
  induction h generalizing t with
  | done a => exact hp
  | throw e => exact hp
  | ask _ ih =>
      obtain ⟨x, u, rfl, hnext⟩ := finishes_ask.mp hp
      have hx := ht _ List.mem_cons_self
      exact finishes_ask.mpr
        ⟨x, u, rfl, ih x hx (fun e he => ht e (List.mem_cons_of_mem _ he)) hnext⟩

/-- **The two have the same runs**, of those that keep the promise. -/
theorem Agrees.finishes_iff {p q : Program Op Ans ε α} (h : Agrees A p q) {t : List (Event Ans)}
    {r : Except ε α} (ht : ∀ e ∈ t, A e) : Finishes p t r ↔ Finishes q t r :=
  ⟨h.finishes ht, h.symm.finishes ht⟩

/-! ## Surroundings that stay as they are -/

/-- What the trace asks of this kind is answered by the surroundings. -/
def Steady (S : Op → Prop) (surroundings : (o : Op) → Ans o) (t : List (Event Ans)) : Prop :=
  ∀ e ∈ t, S e.1 → e.2 = surroundings e.1

section Steady

variable {S : Op → Prop} {surroundings : (o : Op) → Ans o} {t u : List (Event Ans)}

theorem steady_append :
    Steady S surroundings (t ++ u) ↔ Steady S surroundings t ∧ Steady S surroundings u :=
  List.forall_mem_append

/-- **In such surroundings a program that asks nothing else has one run.** -/
theorem Steady.unique {p : Program Op Ans ε α} {r r' : Except ε α} (hp : Uses S p)
    (ht : Steady S surroundings t) (hu : Steady S surroundings u) (h : Finishes p t r)
    (h' : Finishes p u r') : t = u ∧ r = r' := by
  induction p generalizing t u with
  | done a =>
      obtain ⟨rfl, rfl⟩ := finishes_done.mp h
      exact ⟨(finishes_done.mp h').1.symm, (finishes_done.mp h').2.symm⟩
  | throw e =>
      obtain ⟨rfl, rfl⟩ := finishes_throw.mp h
      exact ⟨(finishes_throw.mp h').1.symm, (finishes_throw.mp h').2.symm⟩
  | ask o next ih =>
      obtain ⟨x, t, rfl, hrest⟩ := finishes_ask.mp h
      obtain ⟨y, u, rfl, hrest'⟩ := finishes_ask.mp h'
      -- both were answered what the surroundings answer
      obtain rfl : x = surroundings o := ht _ List.mem_cons_self hp.1
      obtain rfl : y = surroundings o := hu _ List.mem_cons_self hp.1
      obtain ⟨rfl, rfl⟩ := ih _ (hp.2 _) (fun e he => ht e (List.mem_cons_of_mem _ he))
        (fun e he => hu e (List.mem_cons_of_mem _ he)) hrest hrest'
      exact ⟨rfl, rfl⟩

/-- Where what follows such a program can only return one value, a second run returns what the first
did or throws where it follows. -/
theorem Steady.returned {p : Program Op Ans ε α} {f : α → Program Op Ans ε β} {val : α → β} {b : β}
    {r : Except ε β} (hp : Uses S p) (hf : ∀ a, Returns (fun b => b = val a) (f a))
    (ht : Steady S surroundings t) (hu : Steady S surroundings u)
    (h : Finishes (p >>= f) t (.ok b)) (h' : Finishes (p >>= f) u r) :
    r = .ok b ∨ ∃ e a u₁ u₂, r = .error e ∧ u = u₁ ++ u₂ ∧ Finishes (f a) u₂ (.error e) := by
  rcases finishes_bind.mp h with ⟨e, hend, -⟩ | ⟨a, t₁, t₂, rfl, hfirst, hrest⟩
  · cases hend
  obtain rfl := (hf a).of_finishes hrest
  have ht₁ := (steady_append.mp ht).1
  rcases finishes_bind.mp h' with ⟨e, rfl, hthrow⟩ | ⟨a', u₁, u₂, rfl, hfirst', hrest'⟩
  · cases (ht₁.unique hp hu hfirst hthrow).2
  obtain rfl := Except.ok.inj (ht₁.unique hp (steady_append.mp hu).1 hfirst hfirst').2
  cases r with
  | ok b' => exact .inl (congrArg Except.ok ((hf a).of_finishes hrest'))
  | error e => exact .inr ⟨e, a, u₁, u₂, rfl, rfl, hrest'⟩

end Steady

/-! ## Throws handed over -/

/-- A throw that is handed over is a value like any other. -/
theorem wp_attempt {B : List (Event Ans) → Op → Prop} {p : Program Op Ans ε α}
    {Q : List (Event Ans) → Except ε' (Except ε α) → Prop} {h : List (Event Ans)} :
    wp B (p.attempt : Program Op Ans ε' (Except ε α)) Q h ↔ wp B p (fun h r => Q h (.ok r)) h := by
  induction p generalizing h with
  | done a => exact Iff.rfl
  | throw e => exact Iff.rfl
  | ask o next ih => exact and_congr_right fun _ => forall_congr' fun x => ih x

theorem Yields.attempt {P : α → Prop} {p : Program Op Ans ε α} (hp : Yields A P p) :
    Yields A (fun r => ∀ a, r = .ok a → P a) (p.attempt : Program Op Ans ε' (Except ε α)) := by
  induction p with
  | done a =>
      rintro b ⟨⟩
      exact hp
  | throw e => exact fun a h => by cases h
  | ask o next ih => exact fun x hx => ih x (hp x hx)

/-- A last step that never throws is taken after the throws are handed over. -/
theorem attempt_bind_map (p : Program Op Ans ε α) (g : α → β) :
    ((p >>= fun a => .done (g a)).attempt : Program Op Ans ε' (Except ε β)) =
      p.attempt >>= fun r => .done (r.map g) := by
  induction p with
  | done a => rfl
  | throw e => rfl
  | ask o next ih => exact congrArg (Program.ask o) (funext ih)

theorem wp_ofExcept {B : List (Event Ans) → Op → Prop} {r : Except ε α}
    {Q : List (Event Ans) → Except ε α → Prop} {h : List (Event Ans)} :
    wp B (ofExcept r) Q h ↔ Q h r := by
  cases r with
  | ok a => exact Iff.rfl
  | error e => exact Iff.rfl

end Program

end SharedOS.Foundation
