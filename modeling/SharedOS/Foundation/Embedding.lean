/-
SharedOS.Foundation.Embedding — the runs of a program over a wider interface.

`embed` asks the operations of a program as operations of an interface that has others beside them. A
run of the embedded program is a run of the program, its events renamed (`Carried`), so what was
proved of the program's runs is had there. The rules at the end put an embedded part before a
continuation that uses the wider interface.
-/
import SharedOS.Foundation.Program

namespace SharedOS.Foundation.Program

variable {Op Op' : Type} {Ans : Op → Type} {Ans' : Op' → Type} {ε ε' α β : Type}
  {wrap : Op → Op'} {unwrap : ∀ o, Ans' (wrap o) → Ans o} {fail : ε → ε'}

/-! ## Traces -/

/-- The second trace is the first one, asked over the wider interface. -/
inductive Carried (wrap : Op → Op') (unwrap : ∀ o, Ans' (wrap o) → Ans o) :
    List (Event Ans) → List (Event Ans') → Prop
  | nil : Carried wrap unwrap [] []
  | cons {o : Op} {t : List (Event Ans)} {u : List (Event Ans')} (x : Ans' (wrap o)) :
      Carried wrap unwrap t u → Carried wrap unwrap (⟨o, unwrap o x⟩ :: t) (⟨wrap o, x⟩ :: u)

/-- What reads an event of the narrower interface reads the narrower trace. -/
theorem Carried.filterMap {γ : Type} {t : List (Event Ans)} {u : List (Event Ans')}
    (h : Carried wrap unwrap t u) {f : Event Ans → Option γ} {g : Event Ans' → Option γ}
    (hread : ∀ o x, g ⟨wrap o, x⟩ = f ⟨o, unwrap o x⟩) : u.filterMap g = t.filterMap f := by
  induction h with
  | nil => rfl
  | cons x _ ih =>
      rw [List.filterMap_cons, List.filterMap_cons, hread, ih]

/-- Every event there is one of the narrower interface. -/
theorem Carried.wrapped {t : List (Event Ans)} {u : List (Event Ans')}
    (h : Carried wrap unwrap t u) {e : Event Ans'} (he : e ∈ u) : ∃ o, e.1 = wrap o := by
  induction h with
  | nil => exact absurd he List.not_mem_nil
  | @cons o t u x _ ih =>
      rcases List.mem_cons.mp he with rfl | he
      · exact ⟨o, rfl⟩
      · exact ih he

theorem Carried.getLast? {t : List (Event Ans)} {u : List (Event Ans')}
    (h : Carried wrap unwrap t u) {o : Op} {x : Ans o} (hlast : t.getLast? = some ⟨o, x⟩) :
    ∃ x', u.getLast? = some ⟨wrap o, x'⟩ ∧ unwrap o x' = x := by
  induction h with
  | nil => cases hlast
  | @cons o' t u y h ih =>
      cases h with
      | nil =>
          cases hlast
          exact ⟨y, rfl, rfl⟩
      | cons z h => exact ih (by simpa using hlast)

/-! ## Runs -/

/-- **A whole run of the embedded program** is one of the program. -/
theorem finishes_embed {p : Program Op Ans ε α} {u : List (Event Ans')} {r' : Except ε' α}
    (h : Finishes (p.embed wrap unwrap fail) u r') :
    ∃ t r, Finishes p t r ∧ Carried wrap unwrap t u ∧ r' = r.mapError fail := by
  induction p generalizing u with
  | done a =>
      obtain ⟨rfl, rfl⟩ := finishes_done.mp h
      exact ⟨[], .ok a, .here _, .nil, rfl⟩
  | throw e =>
      obtain ⟨rfl, rfl⟩ := finishes_throw.mp h
      exact ⟨[], .error e, .here _, .nil, rfl⟩
  | ask o next ih =>
      obtain ⟨x, u', rfl, hrest⟩ := finishes_ask.mp h
      obtain ⟨t, r, hrun, hcarried, hr⟩ := ih _ hrest
      exact ⟨_, r, .answer _ hrun, .cons x hcarried, hr⟩

/-- What the embedded program is about to ask, the program is. -/
theorem asks_embed {p : Program Op Ans ε α} {u : List (Event Ans')} {o' : Op'}
    (h : Asks (p.embed wrap unwrap fail) u o') :
    ∃ t o, Asks p t o ∧ Carried wrap unwrap t u ∧ o' = wrap o := by
  induction p generalizing u with
  | done a => exact absurd h not_asks_done
  | throw e => exact absurd h not_asks_throw
  | ask o next ih =>
      rcases asks_ask.mp h with ⟨rfl, rfl⟩ | ⟨x, u', rfl, hrest⟩
      · exact ⟨[], o, asks_ask.mpr (.inl ⟨rfl, rfl⟩), .nil, rfl⟩
      · obtain ⟨t, o₂, hasks, hcarried, ho⟩ := ih _ hrest
        exact ⟨_, o₂, asks_ask.mpr (.inr ⟨_, t, rfl, hasks⟩), .cons x hcarried, ho⟩

/-- A sequence is embedded part by part. -/
theorem embed_bind (p : Program Op Ans ε α) (f : α → Program Op Ans ε β) :
    ((p >>= f).embed wrap unwrap fail : Program Op' Ans' ε' β) =
      p.embed wrap unwrap fail >>= fun a => (f a).embed wrap unwrap fail := by
  induction p with
  | done a => rfl
  | throw e => rfl
  | ask o next ih => exact congrArg (Program.ask (wrap o)) (funext fun x => ih (unwrap o x))

/-! ## Rules -/

theorem Uses.embed {S : Op → Prop} {S' : Op' → Prop} {p : Program Op Ans ε α} (hp : Uses S p)
    (h : ∀ o, S o → S' (wrap o)) : Uses S' (p.embed wrap unwrap fail) := by
  induction p with
  | done a => trivial
  | throw e => trivial
  | ask o next ih => exact ⟨h o hp.1, fun x => ih _ (hp.2 _)⟩

theorem Returns.embed {P : α → Prop} {p : Program Op Ans ε α} (hp : Returns P p) :
    Returns P (p.embed wrap unwrap fail) := by
  induction p with
  | done a => exact hp
  | throw e => trivial
  | ask o next ih => exact fun x => ih _ (hp _)

/-- **An embedded part first.** What it asks and how it ends are read off the runs of the program. -/
theorem wp_embed_bind {A : List (Event Ans') → Op' → Prop} {p : Program Op Ans ε α}
    {f : α → Program Op' Ans' ε' β} {Q : List (Event Ans') → Except ε' β → Prop}
    {h : List (Event Ans')}
    (hasks : ∀ t u o, Asks p t o → Carried wrap unwrap t u → A (h ++ u) (wrap o))
    (hthrow : ∀ t u e, Finishes p t (.error e) → Carried wrap unwrap t u →
      Q (h ++ u) (.error (fail e)))
    (hnext : ∀ t u a, Finishes p t (.ok a) → Carried wrap unwrap t u → wp A (f a) Q (h ++ u)) :
    wp A (p.embed wrap unwrap fail >>= f) Q h := by
  refine wp_bind.mpr (wp_of_runs (fun u o ho => ?_) fun u r hr => ?_)
  · obtain ⟨t, o, hask, hcarried, rfl⟩ := asks_embed ho
    exact hasks t u o hask hcarried
  · obtain ⟨t, r, hrun, hcarried, rfl⟩ := finishes_embed hr
    cases r with
    | ok a => exact hnext t u a hrun hcarried
    | error e => exact hthrow t u e hrun hcarried

/-- Where the end of the program is fixed, so is that of the embedded one. -/
theorem FixedFrom.embed {S : Op → Prop} {S' : Op' → Prop} {p : Program Op Ans ε α}
    (hp : FixedFrom S p) (h : ∀ o, S' (wrap o) → S o) :
    FixedFrom S' (p.embed wrap unwrap fail) := by
  induction p with
  | done a => trivial
  | throw e => trivial
  | ask o next ih =>
      refine ⟨fun ho => ?_, fun x => ih _ (hp.2 _)⟩
      obtain ⟨r, hr⟩ := hp.1 (h o ho)
      refine ⟨r.mapError fail, fun x u r' hrun => ?_⟩
      obtain ⟨t, r₀, hrun₀, -, rfl⟩ := finishes_embed hrun
      rw [hr _ t r₀ hrun₀]

end SharedOS.Foundation.Program
