/-
SharedOS.Foundation.Run — runs of a labelled machine, and the two rules for invariants.

A machine is an executable step function: a label either applies to a state or does not. A run is
a list of labels that all apply in order. `run_invariant` lifts what one step keeps to what a
whole run keeps. `run_invariant_where` is the same for the runs whose steps all meet a condition
on the state before the step and the label, and `run_simulates` lifts what answers one step of
another machine to what answers its runs.
-/
import Mathlib.Data.List.Basic

namespace SharedOS.Foundation

variable {σ ℓ : Type*} {step : σ → ℓ → Option σ}

/-- The state after the labels, when each of them applies. -/
def run (step : σ → ℓ → Option σ) : σ → List ℓ → Option σ
  | s, [] => some s
  | s, l :: ls => (step s l).bind fun s' => run step s' ls

@[simp] theorem run_nil (s : σ) : run step s [] = some s := rfl

theorem run_singleton (s : σ) (l : ℓ) : run step s [l] = step s l := Option.bind_fun_some _

theorem run_cons {s s' : σ} {l : ℓ} {ls : List ℓ} :
    run step s (l :: ls) = some s' ↔ ∃ s₁, step s l = some s₁ ∧ run step s₁ ls = some s' := by
  simp only [run, Option.bind_eq_some_iff]

theorem run_snoc {s s' : σ} {l : ℓ} {ls : List ℓ} :
    run step s (ls ++ [l]) = some s' ↔ ∃ s₁, run step s ls = some s₁ ∧ step s₁ l = some s' := by
  induction ls generalizing s with
  | nil => simp [run]
  | cons first ls ih =>
      rw [List.cons_append, run_cons]
      simp only [ih, run_cons]
      constructor
      · rintro ⟨s₁, hfirst, s₂, hls, hl⟩
        exact ⟨s₂, ⟨s₁, hfirst, hls⟩, hl⟩
      · rintro ⟨s₂, ⟨s₁, hfirst, hls⟩, hl⟩
        exact ⟨s₁, hfirst, s₂, hls, hl⟩

/-- **Invariant rule.** What every step keeps, every run keeps. -/
theorem run_invariant {I : σ → Prop} (hstep : ∀ s l s', I s → step s l = some s' → I s')
    {s s' : σ} {ls : List ℓ} (hs : I s) (h : run step s ls = some s') : I s' := by
  induction ls generalizing s with
  | nil =>
      cases h
      exact hs
  | cons l ls ih =>
      obtain ⟨s₁, hl, hls⟩ := run_cons.mp h
      exact ih (hstep s l s₁ hs hl) hls

/-- **Bound rule.** Where every step costs, a run is no longer than what it starts with. -/
theorem run_length_le {cost : σ → ℕ} (hcost : ∀ s l s', step s l = some s' → cost s' < cost s)
    {s s' : σ} {ls : List ℓ} (h : run step s ls = some s') : ls.length + cost s' ≤ cost s := by
  induction ls generalizing s with
  | nil =>
      cases h
      exact Nat.le_of_eq (Nat.zero_add _)
  | cons l ls ih =>
      obtain ⟨s₁, hl, hls⟩ := run_cons.mp h
      have hone : cost s₁ < cost s := hcost s l s₁ hl
      have hrest : ls.length + cost s' ≤ cost s₁ := ih hls
      show ls.length + 1 + cost s' ≤ cost s
      omega

/-- **Simulation rule.** Where a machine answers every step of another by one of its own, of a label
that matches, it answers every run. -/
theorem run_simulates {σ' ℓ' : Type*} {step' : σ' → ℓ' → Option σ'} {R : σ → σ' → Prop}
    {Matches : ℓ → ℓ' → Prop}
    (hstep : ∀ s t l s₁, R s t → step s l = some s₁ →
      ∃ m t₁, Matches l m ∧ step' t m = some t₁ ∧ R s₁ t₁)
    {s s' : σ} {t : σ'} {ls : List ℓ} (hs : R s t) (h : run step s ls = some s') :
    ∃ ms t', List.Forall₂ Matches ls ms ∧ run step' t ms = some t' ∧ R s' t' := by
  induction ls generalizing s t with
  | nil =>
      cases h
      exact ⟨[], t, .nil, rfl, hs⟩
  | cons l ls ih =>
      obtain ⟨s₁, hl, hls⟩ := run_cons.mp h
      obtain ⟨m, t₁, hmatch, hm, hs₁⟩ := hstep s t l s₁ hs hl
      obtain ⟨ms, t', hmatches, hms, hs'⟩ := ih hs₁ hls
      exact ⟨m :: ms, t', .cons hmatch hmatches, run_cons.mpr ⟨t₁, hm, hms⟩, hs'⟩

/-- Every step of the run meets the condition, judged at the state it is taken in. -/
def StepsMeet (step : σ → ℓ → Option σ) (cond : σ → ℓ → Prop) : σ → List ℓ → Prop
  | _, [] => True
  | s, l :: ls => cond s l ∧ ∀ s', step s l = some s' → StepsMeet step cond s' ls

/-- **Conditional invariant rule.** What every step that meets the condition keeps, every run
whose steps all meet it keeps. -/
theorem run_invariant_where {I : σ → Prop} {cond : σ → ℓ → Prop}
    (hstep : ∀ s l s', I s → cond s l → step s l = some s' → I s') {s s' : σ} {ls : List ℓ}
    (hs : I s) (hmeet : StepsMeet step cond s ls) (h : run step s ls = some s') : I s' := by
  induction ls generalizing s with
  | nil =>
      cases h
      exact hs
  | cons l ls ih =>
      obtain ⟨s₁, hl, hls⟩ := run_cons.mp h
      exact ih (hstep s l s₁ hs hmeet.1 hl) (hmeet.2 s₁ hl) hls

theorem run_append {s s' : σ} {before after : List ℓ} :
    run step s (before ++ after) = some s' ↔
      ∃ s₁, run step s before = some s₁ ∧ run step s₁ after = some s' := by
  induction before generalizing s with
  | nil => simp
  | cons l before ih =>
      rw [List.cons_append, run_cons]
      simp only [ih, run_cons]
      constructor
      · rintro ⟨s₁, hl, s₂, hbefore, hafter⟩
        exact ⟨s₂, ⟨s₁, hl, hbefore⟩, hafter⟩
      · rintro ⟨s₂, ⟨s₁, hl, hbefore⟩, hafter⟩
        exact ⟨s₁, hl, s₂, hbefore, hafter⟩

/-- The condition, at the state one of the steps is taken in. -/
theorem StepsMeet.at_step {cond : σ → ℓ → Prop} {s s₁ : σ} {before after : List ℓ} {l : ℓ}
    (h : StepsMeet step cond s (before ++ l :: after)) (hbefore : run step s before = some s₁) :
    cond s₁ l := by
  induction before generalizing s with
  | nil =>
      cases hbefore
      exact h.1
  | cons first before ih =>
      obtain ⟨s₂, hfirst, hrest⟩ := run_cons.mp hbefore
      exact ih (h.2 s₂ hfirst) hrest

/-- Conditions that agree at every step are met by the same runs. -/
theorem stepsMeet_congr {cond cond' : σ → ℓ → Prop} (h : ∀ s l, cond s l ↔ cond' s l) (s : σ)
    (ls : List ℓ) : StepsMeet step cond s ls ↔ StepsMeet step cond' s ls := by
  induction ls generalizing s with
  | nil => exact Iff.rfl
  | cons l ls ih =>
      exact and_congr (h s l) (forall_congr' fun s' => imp_congr_right fun _ => ih s')

theorem StepsMeet.append {cond : σ → ℓ → Prop} {s : σ} {before after : List ℓ}
    (hbefore : StepsMeet step cond s before)
    (hafter : ∀ s₁, run step s before = some s₁ → StepsMeet step cond s₁ after) :
    StepsMeet step cond s (before ++ after) := by
  induction before generalizing s with
  | nil => exact hafter s rfl
  | cons l before ih =>
      refine ⟨hbefore.1, fun s₁ hl => ih (hbefore.2 s₁ hl) fun s₂ hs₂ => ?_⟩
      exact hafter s₂ (run_cons.mpr ⟨s₁, hl, hs₂⟩)

/-- Labels whose steps meet the condition wherever an invariant holds, and keep it. -/
theorem StepsMeet.of_invariant {I : σ → Prop} {cond : σ → ℓ → Prop} {s : σ} {ls : List ℓ}
    (hs : I s) (hcond : ∀ l ∈ ls, ∀ s, I s → cond s l)
    (hstep : ∀ s l s', I s → cond s l → step s l = some s' → I s') : StepsMeet step cond s ls := by
  induction ls generalizing s with
  | nil => trivial
  | cons l ls ih =>
      have hl : cond s l := hcond l List.mem_cons_self s hs
      refine ⟨hl, fun s' hs' => ih (hstep s l s' hs hl hs') ?_⟩
      intro m hm
      exact hcond m (List.mem_cons_of_mem l hm)

/-- Whether every step of the run passes a test. -/
def stepsPass (step : σ → ℓ → Option σ) (test : σ → ℓ → Bool) : σ → List ℓ → Bool
  | _, [] => true
  | s, l :: ls => test s l && (step s l).all fun s' => stepsPass step test s' ls

theorem StepsMeet.of_pass {test : σ → ℓ → Bool} {cond : σ → ℓ → Prop} {s : σ} {ls : List ℓ}
    (h : stepsPass step test s ls = true) (hcond : ∀ l ∈ ls, ∀ s, test s l = true → cond s l) :
    StepsMeet step cond s ls := by
  induction ls generalizing s with
  | nil => trivial
  | cons l ls ih =>
      obtain ⟨htest, hrest⟩ := Bool.and_eq_true_iff.mp h
      refine ⟨hcond l List.mem_cons_self s htest, fun s' hs' => ih ?_ ?_⟩
      · rw [hs'] at hrest
        exact hrest
      · intro m hm
        exact hcond m (List.mem_cons_of_mem l hm)

theorem StepsMeet.of_forall {cond : σ → ℓ → Prop} {s : σ} {ls : List ℓ}
    (h : ∀ l ∈ ls, ∀ s, cond s l) : StepsMeet step cond s ls := by
  induction ls generalizing s with
  | nil => trivial
  | cons l ls ih =>
      refine ⟨h l List.mem_cons_self s, fun s' _ => ih ?_⟩
      intro m hm
      exact h m (List.mem_cons_of_mem l hm)

end SharedOS.Foundation
