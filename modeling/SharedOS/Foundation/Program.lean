/-
SharedOS.Foundation.Program — programs over an interface, their traces, and rules for both.

A program asks its environment, one operation at a time, and goes on with whatever answer it gets.
The answer to an operation is any value of its answer type, so a statement about every run of a
program is a statement about every behaviour of everything it calls. A run is named by its trace:
the operations asked, each with the answer that came back.

Two ways to reason, each with its rule for `>>=`. `Reaches` takes a run apart: a run of `p >>= f`
is a run of `p`, or a whole run of `p` and then a run of `f`. `wp` goes forward: from the trace so
far it asks `A` of every operation the program performs and `Q` of how it ends.
-/
import Mathlib.Data.List.Infix

namespace SharedOS.Foundation

/-- A program that asks operations `Op`, is answered in `Ans`, and returns an `α` or throws an
`ε`. -/
inductive Program (Op : Type) (Ans : Op → Type) (ε α : Type) where
  | done (a : α)
  | throw (e : ε)
  | ask (o : Op) (next : Ans o → Program Op Ans ε α)

/-- One operation together with its answer. -/
abbrev Event {Op : Type} (Ans : Op → Type) := (o : Op) × Ans o

namespace Program

variable {Op : Type} {Ans : Op → Type} {ε ε' α β γ : Type}

/-! ## The monad -/

/-- One program, and another on what it came to. -/
protected def bind : Program Op Ans ε α → (α → Program Op Ans ε β) → Program Op Ans ε β
  | .done a, f => f a
  | .throw e, _ => .throw e
  | .ask o next, f => .ask o fun x => (next x).bind f

instance : Monad (Program Op Ans ε) where
  pure := .done
  bind := Program.bind

@[simp] theorem pure_eq (a : α) : (pure a : Program Op Ans ε α) = .done a := rfl

@[simp] theorem done_bind (a : α) (f : α → Program Op Ans ε β) : (.done a >>= f) = f a := rfl

@[simp] theorem throw_bind (e : ε) (f : α → Program Op Ans ε β) : (.throw e >>= f) = .throw e :=
  rfl

@[simp] theorem ask_bind (o : Op) (next : Ans o → Program Op Ans ε α)
    (f : α → Program Op Ans ε β) : (.ask o next >>= f) = .ask o fun x => next x >>= f := rfl

theorem bind_assoc (p : Program Op Ans ε α) (f : α → Program Op Ans ε β)
    (g : β → Program Op Ans ε γ) : (p >>= f) >>= g = p >>= fun a => f a >>= g := by
  induction p with
  | done a => rfl
  | throw e => rfl
  | ask o next ih =>
      rw [ask_bind, ask_bind, ask_bind]
      exact congrArg (Program.ask o) (funext ih)

/-- Ask one operation and return its answer. -/
def perform (o : Op) : Program Op Ans ε (Ans o) := .ask o .done

@[simp] theorem perform_bind (o : Op) (f : Ans o → Program Op Ans ε β) :
    (perform o >>= f) = .ask o f := rfl

/-- Run a program and hand over how it ended, a throw included. -/
def attempt : Program Op Ans ε α → Program Op Ans ε' (Except ε α)
  | .done a => .done (.ok a)
  | .throw e => .done (.error e)
  | .ask o next => .ask o fun x => (next x).attempt

/-- How a finished program ended. -/
def ofExcept : Except ε α → Program Op Ans ε α
  | .ok a => .done a
  | .error e => .throw e

@[simp] theorem ofExcept_ok (a : α) : (ofExcept (.ok a) : Program Op Ans ε α) = .done a := rfl

@[simp] theorem ofExcept_error (e : ε) : (ofExcept (.error e) : Program Op Ans ε α) = .throw e :=
  rfl

/-! ## Runs -/

/-- `Reaches p t q`: answered as `t` says, `p` has become `q`. -/
inductive Reaches : Program Op Ans ε α → List (Event Ans) → Program Op Ans ε α → Prop
  | here (p : Program Op Ans ε α) : Reaches p [] p
  | answer {o : Op} {next : Ans o → Program Op Ans ε α} {t : List (Event Ans)}
      {q : Program Op Ans ε α} (x : Ans o) :
      Reaches (next x) t q → Reaches (.ask o next) (⟨o, x⟩ :: t) q

/-- Answered as `t` says, `p` ends with `r`. -/
abbrev Finishes (p : Program Op Ans ε α) (t : List (Event Ans)) (r : Except ε α) : Prop :=
  Reaches p t (ofExcept r)

/-- Answered as `t` says, `p` is about to ask `o`. -/
def Asks (p : Program Op Ans ε α) (t : List (Event Ans)) (o : Op) : Prop :=
  ∃ next, Reaches p t (.ask o next)

theorem Reaches.trans {p q r : Program Op Ans ε α} {t u : List (Event Ans)}
    (hp : Reaches p t q) (hq : Reaches q u r) : Reaches p (t ++ u) r := by
  induction hp with
  | here _ => exact hq
  | answer x _ ih => exact .answer x (ih hq)

/-- One answer more. -/
theorem Reaches.snoc {p : Program Op Ans ε α} {o : Op} {next : Ans o → Program Op Ans ε α}
    {t : List (Event Ans)} (h : Reaches p t (.ask o next)) (x : Ans o) :
    Reaches p (t ++ [⟨o, x⟩]) (next x) := h.trans (.answer x (.here _))

/-- What a run was answered, it had asked. -/
theorem Reaches.asks_prefix {p q : Program Op Ans ε α} {t u : List (Event Ans)} {e : Event Ans}
    (h : Reaches p (t ++ e :: u) q) : Asks p t e.1 := by
  induction t generalizing p with
  | nil =>
      cases h with
      | answer x h => exact ⟨_, .here _⟩
  | cons first t ih =>
      cases h with
      | answer x h =>
          obtain ⟨next, hnext⟩ := ih h
          exact ⟨next, .answer x hnext⟩

@[simp] theorem finishes_done {a : α} {t : List (Event Ans)} {r : Except ε α} :
    Finishes (.done a : Program Op Ans ε α) t r ↔ t = [] ∧ r = .ok a := by
  constructor
  · intro h
    cases r with
    | ok b => cases h; exact ⟨rfl, rfl⟩
    | error e => cases h
  · rintro ⟨rfl, rfl⟩
    exact .here _

@[simp] theorem finishes_throw {e : ε} {t : List (Event Ans)} {r : Except ε α} :
    Finishes (.throw e : Program Op Ans ε α) t r ↔ t = [] ∧ r = .error e := by
  constructor
  · intro h
    cases r with
    | ok b => cases h
    | error e => cases h; exact ⟨rfl, rfl⟩
  · rintro ⟨rfl, rfl⟩
    exact .here _

@[simp] theorem finishes_ask {o : Op} {next : Ans o → Program Op Ans ε α}
    {t : List (Event Ans)} {r : Except ε α} :
    Finishes (.ask o next) t r ↔ ∃ x t', t = ⟨o, x⟩ :: t' ∧ Finishes (next x) t' r := by
  constructor
  · intro h
    generalize hp : Program.ask o next = p at h
    cases h with
    | here _ => cases r <;> cases hp
    | answer x h => cases hp; exact ⟨x, _, rfl, h⟩
  · rintro ⟨x, t', rfl, h⟩
    exact .answer x h

@[simp] theorem not_asks_done {a : α} {t : List (Event Ans)} {o : Op} :
    ¬ Asks (.done a : Program Op Ans ε α) t o := by
  rintro ⟨_, h⟩
  cases h

@[simp] theorem not_asks_throw {e : ε} {t : List (Event Ans)} {o : Op} :
    ¬ Asks (.throw e : Program Op Ans ε α) t o := by
  rintro ⟨_, h⟩
  cases h

theorem asks_ask {o o' : Op} {next : Ans o → Program Op Ans ε α} {t : List (Event Ans)} :
    Asks (.ask o next) t o' ↔
      (t = [] ∧ o' = o) ∨ ∃ x t', t = ⟨o, x⟩ :: t' ∧ Asks (next x) t' o' := by
  constructor
  · rintro ⟨next', h⟩
    cases h with
    | here _ => exact .inl ⟨rfl, rfl⟩
    | answer x h => exact .inr ⟨x, _, rfl, _, h⟩
  · rintro (⟨rfl, rfl⟩ | ⟨x, t', rfl, next', h⟩)
    · exact ⟨_, .here _⟩
    · exact ⟨next', .answer x h⟩

/-- **A whole run of a sequence** is a whole run of its head that throws, or one that returns
followed by a whole run of the rest. -/
theorem finishes_bind {p : Program Op Ans ε α} {f : α → Program Op Ans ε β}
    {t : List (Event Ans)} {r : Except ε β} :
    Finishes (p >>= f) t r ↔
      (∃ e, r = .error e ∧ Finishes p t (.error e)) ∨
      ∃ a t₁ t₂, t = t₁ ++ t₂ ∧ Finishes p t₁ (.ok a) ∧ Finishes (f a) t₂ r := by
  induction p generalizing t with
  | done a =>
      constructor
      · exact fun h => .inr ⟨a, [], t, rfl, .here _, h⟩
      · rintro (⟨e, _, h⟩ | ⟨b, t₁, t₂, rfl, h, hr⟩)
        · cases h
        · obtain ⟨rfl, hb⟩ := finishes_done.mp h
          cases hb
          exact hr
  | throw e =>
      rw [throw_bind, finishes_throw]
      constructor
      · rintro ⟨rfl, rfl⟩
        exact .inl ⟨e, rfl, .here _⟩
      · rintro (⟨e', rfl, h⟩ | ⟨b, t₁, t₂, rfl, h, hr⟩)
        · obtain ⟨rfl, he⟩ := finishes_throw.mp h
          cases he
          exact ⟨rfl, rfl⟩
        · cases h
  | ask o next ih =>
      rw [ask_bind, finishes_ask]
      constructor
      · rintro ⟨x, t', rfl, hrun⟩
        rcases (ih x).mp hrun with ⟨e, rfl, hp⟩ | ⟨a, t₁, t₂, rfl, hp, hr⟩
        · exact .inl ⟨e, rfl, .answer x hp⟩
        · exact .inr ⟨a, ⟨o, x⟩ :: t₁, t₂, rfl, .answer x hp, hr⟩
      · rintro (⟨e, rfl, hask⟩ | ⟨a, t₁, t₂, rfl, hask, hr⟩)
        · obtain ⟨x, t', rfl, hp⟩ := finishes_ask.mp hask
          exact ⟨x, t', rfl, (ih x).mpr (.inl ⟨e, rfl, hp⟩)⟩
        · obtain ⟨x, t', rfl, hp⟩ := finishes_ask.mp hask
          exact ⟨x, t' ++ t₂, rfl, (ih x).mpr (.inr ⟨a, t', t₂, rfl, hp, hr⟩)⟩

/-- Answered one way, a program ends one way. -/
theorem finishes_unique {p : Program Op Ans ε α} {t : List (Event Ans)} {r r' : Except ε α}
    (h : Finishes p t r) (h' : Finishes p t r') : r = r' := by
  induction p generalizing t with
  | done a => rw [(finishes_done.mp h).2, (finishes_done.mp h').2]
  | throw e => rw [(finishes_throw.mp h).2, (finishes_throw.mp h').2]
  | ask o next ih =>
      obtain ⟨x, u, rfl, hrest⟩ := finishes_ask.mp h
      obtain ⟨x', u', heq, hrest'⟩ := finishes_ask.mp h'
      cases heq
      exact ih x hrest hrest'

/-- A run of a program whose answer is computed from another's. -/
theorem finishes_map {p : Program Op Ans ε α} {f : α → β} {t : List (Event Ans)} {b : β} :
    Finishes (p >>= fun a => pure (f a)) t (.ok b) ↔ ∃ a, Finishes p t (.ok a) ∧ f a = b := by
  rw [finishes_bind]
  constructor
  · rintro (⟨e, he, _⟩ | ⟨a, t₁, t₂, rfl, hp, hr⟩)
    · cases he
    · obtain ⟨rfl, hb⟩ := finishes_done.mp hr
      cases hb
      rw [List.append_nil]
      exact ⟨a, hp, rfl⟩
  · rintro ⟨a, hp, rfl⟩
    exact .inr ⟨a, t, [], (List.append_nil t).symm, hp, .here _⟩

/-- The run in surroundings that answer each operation one way. -/
def runWith (surroundings : (o : Op) → Ans o) :
    Program Op Ans ε α → List (Event Ans) × Except ε α
  | .done a => ([], .ok a)
  | .throw e => ([], .error e)
  | .ask o next =>
    let rest := (next (surroundings o)).runWith surroundings
    (⟨o, surroundings o⟩ :: rest.1, rest.2)

theorem finishes_runWith (surroundings : (o : Op) → Ans o) (p : Program Op Ans ε α) :
    Finishes p (p.runWith surroundings).1 (p.runWith surroundings).2 := by
  induction p with
  | done a => exact .here _
  | throw e => exact .here _
  | ask o next ih => exact .answer _ (ih _)

/-- Every answer of such a run is the surroundings' own. -/
theorem mem_runWith {surroundings : (o : Op) → Ans o} {p : Program Op Ans ε α} {e : Event Ans}
    (h : e ∈ (p.runWith surroundings).1) : e = ⟨e.1, surroundings e.1⟩ := by
  induction p with
  | done a => exact absurd h List.not_mem_nil
  | throw e' => exact absurd h List.not_mem_nil
  | ask o next ih =>
      rcases List.mem_cons.mp h with rfl | h
      · rfl
      · exact ih _ h

/-! ## Weakest preconditions over traces -/

/-- Continuing from the trace `h`, every operation asked meets `A` at the trace it is asked at,
and the program ends in `Q` of the whole trace. -/
def wp (A : List (Event Ans) → Op → Prop) :
    Program Op Ans ε α → (List (Event Ans) → Except ε α → Prop) → List (Event Ans) → Prop
  | .done a, Q, h => Q h (.ok a)
  | .throw e, Q, h => Q h (.error e)
  | .ask o next, Q, h => A h o ∧ ∀ x, wp A (next x) Q (h ++ [⟨o, x⟩])

section Wp

variable {A : List (Event Ans) → Op → Prop}

@[simp] theorem wp_done {a : α} {Q : List (Event Ans) → Except ε α → Prop}
    {h : List (Event Ans)} : wp A (.done a) Q h ↔ Q h (.ok a) := Iff.rfl

@[simp] theorem wp_throw {e : ε} {Q : List (Event Ans) → Except ε α → Prop}
    {h : List (Event Ans)} : wp A (.throw e) Q h ↔ Q h (.error e) := Iff.rfl

@[simp] theorem wp_ask {o : Op} {next : Ans o → Program Op Ans ε α}
    {Q : List (Event Ans) → Except ε α → Prop} {h : List (Event Ans)} :
    wp A (.ask o next) Q h ↔ A h o ∧ ∀ x, wp A (next x) Q (h ++ [⟨o, x⟩]) := Iff.rfl

/-- **The rule for sequencing.** -/
theorem wp_bind {p : Program Op Ans ε α} {f : α → Program Op Ans ε β}
    {Q : List (Event Ans) → Except ε β → Prop} {h : List (Event Ans)} :
    wp A (p >>= f) Q h ↔
      wp A p (fun h' r => match r with
        | .ok a => wp A (f a) Q h'
        | .error e => Q h' (.error e)) h := by
  induction p generalizing h with
  | done a => exact Iff.rfl
  | throw e => exact Iff.rfl
  | ask o next ih => simp only [ask_bind, wp_ask, ih]

theorem wp_mono {p : Program Op Ans ε α} {Q Q' : List (Event Ans) → Except ε α → Prop}
    {h : List (Event Ans)} (hp : wp A p Q h) (hQ : ∀ h r, Q h r → Q' h r) : wp A p Q' h := by
  induction p generalizing h with
  | done a => exact hQ _ _ hp
  | throw e => exact hQ _ _ hp
  | ask o next ih => exact ⟨hp.1, fun x => ih x (hp.2 x)⟩

/-- **Soundness**: what `wp` promises holds of every run. -/
theorem wp_sound {p : Program Op Ans ε α} {Q : List (Event Ans) → Except ε α → Prop}
    {h : List (Event Ans)} (hp : wp A p Q h) :
    (∀ t o, Asks p t o → A (h ++ t) o) ∧ ∀ t r, Finishes p t r → Q (h ++ t) r := by
  induction p generalizing h with
  | done a =>
      refine ⟨fun t o ho => absurd ho not_asks_done, fun t r hr => ?_⟩
      obtain ⟨rfl, rfl⟩ := finishes_done.mp hr
      simpa using hp
  | throw e =>
      refine ⟨fun t o ho => absurd ho not_asks_throw, fun t r hr => ?_⟩
      obtain ⟨rfl, rfl⟩ := finishes_throw.mp hr
      simpa using hp
  | ask o next ih =>
      refine ⟨fun t o' ho => ?_, fun t r hr => ?_⟩
      · rcases asks_ask.mp ho with ⟨rfl, rfl⟩ | ⟨x, t', rfl, hnext⟩
        · simpa using hp.1
        · simpa using (ih x (hp.2 x)).1 t' o' hnext
      · obtain ⟨x, t', rfl, hnext⟩ := finishes_ask.mp hr
        simpa using (ih x (hp.2 x)).2 t' r hnext

/-- **Completeness**: what holds of every run, `wp` promises. -/
theorem wp_of_runs {p : Program Op Ans ε α} {Q : List (Event Ans) → Except ε α → Prop}
    {h : List (Event Ans)} (hA : ∀ t o, Asks p t o → A (h ++ t) o)
    (hQ : ∀ t r, Finishes p t r → Q (h ++ t) r) : wp A p Q h := by
  induction p generalizing h with
  | done a => simpa using hQ [] (.ok a) (.here _)
  | throw e => simpa using hQ [] (.error e) (.here _)
  | ask o next ih =>
      refine ⟨by simpa using hA [] o ⟨_, .here _⟩, fun x => ih x (fun t o' ho => ?_) ?_⟩
      · simpa using hA (⟨o, x⟩ :: t) o' (asks_ask.mpr (.inr ⟨x, t, rfl, ho⟩))
      · exact fun t r hr => by simpa using hQ (⟨o, x⟩ :: t) r (.answer x hr)

end Wp

/-! ## Which operations a program may ask -/

/-- Every operation the program may ask is one of `S`. -/
def Uses (S : Op → Prop) : Program Op Ans ε α → Prop
  | .done _ => True
  | .throw _ => True
  | .ask o next => S o ∧ ∀ x, Uses S (next x)

section Uses

variable {S : Op → Prop}

@[simp] theorem uses_done (a : α) : Uses S (.done a : Program Op Ans ε α) := trivial

@[simp] theorem uses_throw (e : ε) : Uses S (.throw e : Program Op Ans ε α) := trivial

@[simp] theorem uses_ask {o : Op} {next : Ans o → Program Op Ans ε α} :
    Uses S (.ask o next) ↔ S o ∧ ∀ x, Uses S (next x) := Iff.rfl

theorem Uses.bind {p : Program Op Ans ε α} {f : α → Program Op Ans ε β} (hp : Uses S p)
    (hf : ∀ a, Uses S (f a)) : Uses S (p >>= f) := by
  induction p with
  | done a => exact hf a
  | throw e => trivial
  | ask o next ih => exact ⟨hp.1, fun x => ih x (hp.2 x)⟩

theorem Uses.attempt {p : Program Op Ans ε α} (hp : Uses S p) :
    Uses S (p.attempt : Program Op Ans ε' _) := by
  induction p with
  | done a => trivial
  | throw e => trivial
  | ask o next ih => exact ⟨hp.1, fun x => ih x (hp.2 x)⟩

theorem Uses.mono {S' : Op → Prop} {p : Program Op Ans ε α} (hp : Uses S p)
    (h : ∀ o, S o → S' o) : Uses S' p := by
  induction p with
  | done a => trivial
  | throw e => trivial
  | ask o next ih => exact ⟨h o hp.1, fun x => ih x (hp.2 x)⟩

/-- **Frame rule**: a run of a program that uses `S` only adds events of `S`. -/
theorem Uses.trace {p q : Program Op Ans ε α} {t : List (Event Ans)} (hp : Uses S p)
    (h : Reaches p t q) : ∀ e ∈ t, S e.1 := by
  induction h with
  | here _ => simp
  | answer x _ ih =>
      intro e he
      rcases List.mem_cons.mp he with rfl | he
      · exact hp.1
      · exact ih (hp.2 x) e he

theorem Uses.asks {p : Program Op Ans ε α} {t : List (Event Ans)} {o : Op} (hp : Uses S p)
    (h : Asks p t o) : S o := by
  obtain ⟨next, h⟩ := h
  induction t generalizing p with
  | nil => cases h; exact hp.1
  | cons e t ih =>
      cases h with
      | answer x h => exact ih (hp.2 x) h

end Uses

/-- **Frame rule for sequencing.** What every operation of `S` keeps of the trace, a head that uses
`S` keeps. -/
theorem wp_bind_uses {S : Op → Prop} {A : List (Event Ans) → Op → Prop}
    {I : List (Event Ans) → Prop} {p : Program Op Ans ε α} {f : α → Program Op Ans ε β}
    {Q : List (Event Ans) → Except ε β → Prop} {h : List (Event Ans)} (hp : Uses S p)
    (hI : I h) (hkeep : ∀ h (e : Event Ans), I h → S e.1 → I (h ++ [e]))
    (hA : ∀ h o, I h → S o → A h o) (hthrow : ∀ h e, I h → Q h (.error e))
    (hf : ∀ h t a, I h → Finishes p t (.ok a) → wp A (f a) Q h) : wp A (p >>= f) Q h := by
  have hkept : ∀ {t : List (Event Ans)}, (∀ e ∈ t, S e.1) → I (h ++ t) := by
    intro t
    induction t using List.reverseRecOn with
    | nil => intro _; simpa using hI
    | append_singleton t e ih =>
        intro ht
        rw [← List.append_assoc]
        exact hkeep _ e (ih fun e' he' => ht e' (List.mem_append_left _ he'))
          (ht e (List.mem_append_right _ List.mem_cons_self))
  refine wp_bind.mpr (wp_of_runs (fun t o ho => ?_) fun t r hr => ?_)
  · obtain ⟨next, hnext⟩ := id ho
    exact hA _ _ (hkept (hp.trace hnext)) (hp.asks ho)
  · cases r with
    | ok a => exact hf _ t a (hkept (hp.trace hr)) hr
    | error e => exact hthrow _ e (hkept (hp.trace hr))

/-! ## What a program may return -/

/-- Whatever the program returns meets `P`. -/
def Returns (P : α → Prop) : Program Op Ans ε α → Prop
  | .done a => P a
  | .throw _ => True
  | .ask _ next => ∀ x, Returns P (next x)

section Returns

variable {P : α → Prop} {Q : β → Prop}

@[simp] theorem returns_done {a : α} : Returns P (.done a : Program Op Ans ε α) ↔ P a := Iff.rfl

@[simp] theorem returns_throw (e : ε) : Returns P (.throw e : Program Op Ans ε α) := trivial

@[simp] theorem returns_ask {o : Op} {next : Ans o → Program Op Ans ε α} :
    Returns P (.ask o next) ↔ ∀ x, Returns P (next x) := Iff.rfl

/-- **The rule for sequencing.** -/
theorem Returns.bind {p : Program Op Ans ε α} {f : α → Program Op Ans ε β} (hp : Returns P p)
    (hf : ∀ a, P a → Returns Q (f a)) : Returns Q (p >>= f) := by
  induction p with
  | done a => exact hf a hp
  | throw e => trivial
  | ask o next ih => exact fun x => ih x (hp x)

theorem Returns.bind_congr {p : Program Op Ans ε α} {f g : α → Program Op Ans ε β}
    (hp : Returns P p) (h : ∀ a, P a → f a = g a) : p >>= f = p >>= g := by
  induction p with
  | done a => exact h a hp
  | throw e => rfl
  | ask o next ih => exact congrArg (Program.ask o) (funext fun x => ih x (hp x))

theorem Returns.mono {P' : α → Prop} {p : Program Op Ans ε α} (hp : Returns P p)
    (h : ∀ a, P a → P' a) : Returns P' p := by
  induction p with
  | done a => exact h a hp
  | throw e => trivial
  | ask o next ih => exact fun x => ih x (hp x)

/-- **Soundness**: what a run returns meets `P`. -/
theorem Returns.of_finishes {p : Program Op Ans ε α} {t : List (Event Ans)} {a : α}
    (hp : Returns P p) (h : Finishes p t (.ok a)) : P a := by
  induction p generalizing t with
  | done b =>
      cases (finishes_done.mp h).2
      exact hp
  | throw e => cases (finishes_throw.mp h).2
  | ask o next ih =>
      obtain ⟨x, t', rfl, hrest⟩ := finishes_ask.mp h
      exact ih x (hp x) hrest

/-- A sequence returns what its last part does. -/
theorem returns_bind {p : Program Op Ans ε α} {f : α → Program Op Ans ε β}
    (hf : ∀ a, Returns Q (f a)) : Returns Q (p >>= f) := by
  induction p with
  | done a => exact hf a
  | throw e => trivial
  | ask o next ih => exact fun x => ih x

end Returns

/-! ## What sequencing keeps -/

/-- A property of programs that returning has and sequencing keeps. -/
structure Compositional (P : {α : Type} → Program Op Ans ε α → Prop) : Prop where
  done : ∀ {α : Type} (a : α), P (.done a : Program Op Ans ε α)
  bind : ∀ {α β : Type} {p : Program Op Ans ε α} {f : α → Program Op Ans ε β},
    P p → (∀ a, P (f a)) → P (p >>= f)

theorem uses_compositional (S : Op → Prop) :
    Compositional (ε := ε) (fun {α} (p : Program Op Ans ε α) => Uses S p) where
  done := uses_done
  bind := Uses.bind

/-! ## What a program comes to in surroundings that keep a promise -/

/-- Answered only as `A` allows, the program throws nothing, and what it returns meets `P`. -/
def Completes (A : Event Ans → Prop) (P : α → Prop) : Program Op Ans ε α → Prop
  | .done a => P a
  | .throw _ => False
  | .ask o next => ∀ x, A ⟨o, x⟩ → Completes A P (next x)

section Completes

variable {A : Event Ans → Prop} {P : α → Prop} {Q : β → Prop}

@[simp] theorem completes_done {a : α} : Completes A P (.done a : Program Op Ans ε α) ↔ P a :=
  Iff.rfl

/-- **The rule for sequencing.** -/
theorem Completes.bind {p : Program Op Ans ε α} {f : α → Program Op Ans ε β}
    (hp : Completes A P p) (hf : ∀ a, P a → Completes A Q (f a)) : Completes A Q (p >>= f) := by
  induction p with
  | done a => exact hf a hp
  | throw e => exact hp.elim
  | ask o next ih => exact fun x hx => ih x (hp x hx)

/-- One answer more, of those allowed. -/
theorem Completes.answered {o : Op} {next : Ans o → Program Op Ans ε α}
    (h : Completes A P (.ask o next)) {x : Ans o} (hx : A ⟨o, x⟩) : Completes A P (next x) := h x hx

theorem completes_compositional (A : Event Ans → Prop) :
    Compositional (ε := ε)
      (fun {α} (p : Program Op Ans ε α) => Completes A (fun _ => True) p) where
  done _ := trivial
  bind hp hf := hp.bind fun a _ => hf a

end Completes

/-! ## What a program returns in surroundings that keep a promise -/

/-- Answered only as `A` allows, whatever the program returns meets `P`. It may throw. -/
def Yields (A : Event Ans → Prop) (P : α → Prop) : Program Op Ans ε α → Prop
  | .done a => P a
  | .throw _ => True
  | .ask o next => ∀ x, A ⟨o, x⟩ → Yields A P (next x)

section Yields

variable {A : Event Ans → Prop} {P : α → Prop} {Q : β → Prop}

@[simp] theorem yields_done {a : α} : Yields A P (.done a : Program Op Ans ε α) ↔ P a := Iff.rfl

@[simp] theorem yields_throw (e : ε) : Yields A P (.throw e : Program Op Ans ε α) := trivial

/-- **The rule for sequencing.** -/
theorem Yields.bind {p : Program Op Ans ε α} {f : α → Program Op Ans ε β} (hp : Yields A P p)
    (hf : ∀ a, P a → Yields A Q (f a)) : Yields A Q (p >>= f) := by
  induction p with
  | done a => exact hf a hp
  | throw e => trivial
  | ask o next ih => exact fun x hx => ih x (hp x hx)

/-- A sequence returns what its last part does. -/
theorem yields_bind {p : Program Op Ans ε α} {f : α → Program Op Ans ε β}
    (hf : ∀ a, Yields A Q (f a)) : Yields A Q (p >>= f) := by
  induction p with
  | done a => exact hf a
  | throw e => trivial
  | ask o next ih => exact fun x _ => ih x

theorem Yields.mono {P' : α → Prop} {p : Program Op Ans ε α} (hp : Yields A P p)
    (h : ∀ a, P a → P' a) : Yields A P' p := by
  induction p with
  | done a => exact h a hp
  | throw e => trivial
  | ask o next ih => exact fun x hx => ih x (hp x hx)

/-- What is returned whatever the answers is returned where they are restricted. -/
theorem Returns.yields {p : Program Op Ans ε α} (hp : Returns P p) (A : Event Ans → Prop) :
    Yields A P p := by
  induction p with
  | done a => exact hp
  | throw e => trivial
  | ask o next ih => exact fun x _ => ih x (hp x)

/-- **Soundness**: what a run returns, its answers being allowed, meets `P`. -/
theorem Yields.of_finishes {p : Program Op Ans ε α} {t : List (Event Ans)} {a : α}
    (hp : Yields A P p) (h : Finishes p t (.ok a)) (ht : ∀ e ∈ t, A e) : P a := by
  induction p generalizing t with
  | done b =>
      cases (finishes_done.mp h).2
      exact hp
  | throw e => cases (finishes_throw.mp h).2
  | ask o next ih =>
      obtain ⟨x, t', rfl, hrest⟩ := finishes_ask.mp h
      exact ih x (hp x (ht _ List.mem_cons_self)) hrest fun e he =>
        ht e (List.mem_cons_of_mem _ he)

end Yields

/-! ## A program over a wider interface -/

section Embed

variable {Op' : Type} {Ans' : Op' → Type} (wrap : Op → Op') (unwrap : ∀ o, Ans' (wrap o) → Ans o)
  (fail : ε → ε')

/-- The program, asking its operations as operations of the wider interface. -/
def embed : Program Op Ans ε α → Program Op' Ans' ε' α
  | .done a => .done a
  | .throw e => .throw (fail e)
  | .ask o next => .ask (wrap o) fun x => (next (unwrap o x)).embed

variable {wrap unwrap fail}

/-- **What the program returns, it returns there.** -/
theorem Yields.embed {A : Event Ans → Prop} {A' : Event Ans' → Prop} {P : α → Prop}
    {p : Program Op Ans ε α} (hp : Yields A P p)
    (h : ∀ o x, A' ⟨wrap o, x⟩ → A ⟨o, unwrap o x⟩) :
    Yields A' P (p.embed wrap unwrap fail) := by
  induction p with
  | done a => exact hp
  | throw e => trivial
  | ask o next ih => exact fun x hx => ih _ (hp _ (h o x hx))

/-- A throw there is a throw of the program. -/
theorem embed_error {p : Program Op Ans ε α} {t : List (Event Ans')} {e' : ε'}
    (h : Finishes (p.embed wrap unwrap fail) t (.error e')) : ∃ e, e' = fail e := by
  induction p generalizing t with
  | done a => cases (finishes_done.mp h).2
  | throw e =>
      cases (finishes_throw.mp h).2
      exact ⟨e, rfl⟩
  | ask o next ih =>
      obtain ⟨x, t', rfl, hrest⟩ := finishes_ask.mp h
      exact ih _ hrest

end Embed

/-! ## Runs of one program along one trace -/

/-! ## Where the end of a program is fixed -/

/-- Every run of the program ends with `r`. -/
def EndsIn (r : Except ε α) (p : Program Op Ans ε α) : Prop := ∀ t r', Finishes p t r' → r' = r

/-- Once the program has asked one of `S`, no answer changes how it ends. -/
def FixedFrom (S : Op → Prop) : Program Op Ans ε α → Prop
  | .done _ => True
  | .throw _ => True
  | .ask o next => (S o → ∃ r, ∀ x, EndsIn r (next x)) ∧ ∀ x, FixedFrom S (next x)

section Fixed

variable {S : Op → Prop}

theorem endsIn_ofExcept (r : Except ε α) : EndsIn r (ofExcept r : Program Op Ans ε α) := by
  intro t r' h
  cases r with
  | ok a => exact (finishes_done.mp h).2
  | error e => exact (finishes_throw.mp h).2

theorem EndsIn.bind {p : Program Op Ans ε α} {f : α → Program Op Ans ε β} {a : α}
    {r : Except ε β} (hp : EndsIn (.ok a) p) (hf : EndsIn r (f a)) : EndsIn r (p >>= f) := by
  intro t r' h
  rcases finishes_bind.mp h with ⟨e, _, hthrow⟩ | ⟨b, t₁, t₂, _, hrun, hrest⟩
  · cases hp _ _ hthrow
  · cases hp _ _ hrun
    exact hf _ _ hrest

theorem fixedFrom_ofExcept (r : Except ε α) : FixedFrom S (ofExcept r : Program Op Ans ε α) := by
  cases r <;> trivial

/-- A part that asks none of `S` fixes nothing. -/
theorem Uses.fixedFrom_bind {p : Program Op Ans ε α} {f : α → Program Op Ans ε β}
    (hp : Uses (fun o => ¬ S o) p) (hf : ∀ a, FixedFrom S (f a)) : FixedFrom S (p >>= f) := by
  induction p with
  | done a => exact hf a
  | throw e => trivial
  | ask o next ih => exact ⟨fun ho => absurd ho hp.1, fun x => ih x (hp.2 x)⟩

/-- **Two runs that part at an operation of `S` end alike.** -/
theorem FixedFrom.ends_alike {p : Program Op Ans ε α} {o : Op} {x y : Ans o}
    {t t₁ t₂ : List (Event Ans)} {r₁ r₂ : Except ε α} (hp : FixedFrom S p) (ho : S o)
    (h₁ : Finishes p (t ++ ⟨o, x⟩ :: t₁) r₁) (h₂ : Finishes p (t ++ ⟨o, y⟩ :: t₂) r₂) : r₁ = r₂ := by
  induction t generalizing p with
  | nil =>
      cases p with
      | done a => exact absurd (finishes_done.mp h₁).1 (List.cons_ne_nil _ _)
      | throw e => exact absurd (finishes_throw.mp h₁).1 (List.cons_ne_nil _ _)
      | ask o' next =>
          obtain ⟨x', u₁, heq₁, hrun₁⟩ := finishes_ask.mp h₁
          obtain ⟨y', u₂, heq₂, hrun₂⟩ := finishes_ask.mp h₂
          cases heq₁
          cases heq₂
          obtain ⟨r, hr⟩ := hp.1 ho
          rw [hr _ _ _ hrun₁, hr _ _ _ hrun₂]
  | cons e t ih =>
      cases p with
      | done a => exact absurd (finishes_done.mp h₁).1 (List.cons_ne_nil _ _)
      | throw e => exact absurd (finishes_throw.mp h₁).1 (List.cons_ne_nil _ _)
      | ask o' next =>
          obtain ⟨x', u₁, heq₁, hrun₁⟩ := finishes_ask.mp h₁
          obtain ⟨y', u₂, heq₂, hrun₂⟩ := finishes_ask.mp h₂
          cases heq₁
          cases heq₂
          exact ih (hp.2 _) hrun₁ hrun₂

end Fixed

/-! ## Answers known in advance -/

section Answering

variable {known : (o : Op) → Option (Ans o)}

/-- The program, told in advance what some of its operations are answered. -/
def answering (known : (o : Op) → Option (Ans o)) : Program Op Ans ε α → Program Op Ans ε α
  | .done a => .done a
  | .throw e => .throw e
  | .ask o next =>
    match known o with
    | some x => (next x).answering known
    | none => .ask o fun x => (next x).answering known

theorem answering_known {o : Op} {x : Ans o} {next : Ans o → Program Op Ans ε α}
    (h : known o = some x) : (ask o next).answering known = (next x).answering known := by
  rw [answering, h]

theorem answering_unknown {o : Op} {next : Ans o → Program Op Ans ε α} (h : known o = none) :
    (ask o next).answering known = .ask o fun x => (next x).answering known := by
  rw [answering, h]

theorem answering_bind (p : Program Op Ans ε α) (f : α → Program Op Ans ε β) :
    (p >>= f).answering known = p.answering known >>= fun a => (f a).answering known := by
  induction p with
  | done a => rfl
  | throw e => rfl
  | ask o next ih =>
      cases h : known o with
      | some x =>
          rw [ask_bind, answering_known h, answering_known h]
          exact ih x
      | none =>
          rw [ask_bind, answering_unknown h, answering_unknown h, ask_bind]
          exact congrArg (Program.ask o) (funext ih)

/-- What asks nothing known is as it was. -/
theorem Uses.answering_eq {p : Program Op Ans ε α} (hp : Uses (fun o => known o = none) p) :
    p.answering known = p := by
  induction p with
  | done a => rfl
  | throw e => rfl
  | ask o next ih =>
      rw [answering_unknown hp.1]
      exact congrArg (Program.ask o) (funext fun x => ih x (hp.2 x))

/-- **A run in which what is known was answered so** is a run of the program told it in advance. -/
theorem Reaches.answering {p q : Program Op Ans ε α} {t : List (Event Ans)} (h : Reaches p t q)
    (ht : ∀ e ∈ t, ∀ x, known e.1 = some x → e.2 = x) :
    Reaches (p.answering known) (t.filter fun e => (known e.1).isNone) (q.answering known) := by
  induction h with
  | here p => exact .here _
  | @answer o next t q x _ ih =>
      have hrest := ih fun e he => ht e (List.mem_cons_of_mem _ he)
      cases hknown : known o with
      | some x' =>
          obtain rfl : x = x' := ht _ List.mem_cons_self x' hknown
          rw [answering_known hknown, List.filter_cons_of_neg (by simp [hknown])]
          exact hrest
      | none =>
          rw [answering_unknown hknown, List.filter_cons_of_pos (by simp [hknown])]
          exact .answer x hrest

end Answering

end Program

end SharedOS.Foundation
