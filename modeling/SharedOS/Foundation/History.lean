/-
SharedOS.Foundation.History — a log that only grows, and what held when each entry was written.

`WrittenUnder Q log` says that every entry was written where `Q` held of the log before it. A machine
keeps it by proving `Q` at the moment it writes (`writtenUnder_snoc`).
-/
import Mathlib.Data.List.Basic

namespace SharedOS.Foundation

variable {α : Type*} {Q : List α → α → Prop} {log : List α} {entry : α}

/-- Every entry was written where this held of it and the log before it. -/
def WrittenUnder (Q : List α → α → Prop) (log : List α) : Prop :=
  ∀ before entry after, log = before ++ entry :: after → Q before entry

theorem writtenUnder_nil : WrittenUnder Q [] := by
  intro before entry after h
  exact absurd h.symm (List.append_ne_nil_of_right_ne_nil _ (List.cons_ne_nil _ _))

theorem writtenUnder_snoc :
    WrittenUnder Q (log ++ [entry]) ↔ WrittenUnder Q log ∧ Q log entry := by
  constructor
  · intro h
    refine ⟨fun before e after heq => h before e (after ++ [entry]) ?_, h log entry [] rfl⟩
    rw [heq, List.append_assoc, List.cons_append]
  · rintro ⟨hlog, hentry⟩ before e after heq
    -- the entry is the last one, or it was there before
    rcases List.eq_nil_or_concat after with rfl | ⟨rest, last, rfl⟩
    · obtain ⟨rfl, hlast⟩ := List.append_inj' heq rfl
      rw [← (List.cons.inj hlast).1]
      exact hentry
    · rw [List.concat_eq_append, ← List.cons_append, ← List.append_assoc] at heq
      exact hlog before e rest (List.append_inj' heq rfl).1

end SharedOS.Foundation
