/-
SharedOS.Foundation.Scan — scans of a list that stop at the first decisive item.

A scan passes over items until one decides. A usable item decides for, a blocking item decides
against, every other item is passed over. `scanAllows_iff` says which scans end in favour,
`scanAllows_iff_exists` that order is irrelevant where nothing blocks, and `scanAllows_iff_not_shadowed`
exactly when a list that holds a usable item is decided in its favour. `FirstIn` names the first
usable item.
-/
import Mathlib.Data.List.Basic

namespace SharedOS.Foundation

variable {α : Type*} {usable blocking : α → Prop}

/-- The scan of the list decides in favour. -/
def ScanAllows (usable blocking : α → Prop) : List α → Prop
  | [] => False
  | a :: rest => usable a ∨ (¬ blocking a ∧ ScanAllows usable blocking rest)

/-- Some blocking item stands before every usable one. -/
def Shadowed (usable blocking : α → Prop) (xs : List α) : Prop :=
  ∃ before a after, xs = before ++ a :: after ∧ blocking a ∧ ∀ b ∈ before, ¬ usable b

/-- The first usable item of the list. -/
def FirstIn (usable : α → Prop) (xs : List α) (a : α) : Prop :=
  ∃ before after, xs = before ++ a :: after ∧ usable a ∧ ∀ b ∈ before, ¬ usable b

theorem FirstIn.mem {xs : List α} {a : α} (h : FirstIn usable xs a) : a ∈ xs := by
  obtain ⟨before, after, rfl, -⟩ := h
  exact List.mem_append_right _ List.mem_cons_self

theorem FirstIn.holds {xs : List α} {a : α} (h : FirstIn usable xs a) : usable a := by
  obtain ⟨_, _, _, ha, _⟩ := h
  exact ha

/-- There is at most one first item. -/
theorem FirstIn.unique {xs : List α} {a b : α} (ha : FirstIn usable xs a)
    (hb : FirstIn usable xs b) : a = b := by
  classical
  have hfind : ∀ {c : α}, FirstIn usable xs c → xs.find? (fun x => decide (usable x)) = some c := by
    rintro c ⟨before, after, hsplit, hc, hbefore⟩
    refine List.find?_eq_some_iff_append.mpr ⟨decide_eq_true hc, before, after, hsplit, ?_⟩
    exact fun x hx => by simpa using hbefore x hx
  exact Option.some.inj ((hfind ha).symm.trans (hfind hb))

theorem scanAllows_cons_usable {a : α} {rest : List α} (ha : usable a) :
    ScanAllows usable blocking (a :: rest) := .inl ha

theorem not_scanAllows_cons_blocking {a : α} {rest : List α} (hu : ¬ usable a)
    (hb : blocking a) : ¬ ScanAllows usable blocking (a :: rest) := by
  rintro (h | h)
  · exact hu h
  · exact h.1 hb

theorem scanAllows_cons_passed {a : α} {rest : List α} (hu : ¬ usable a) (hb : ¬ blocking a) :
    ScanAllows usable blocking (a :: rest) ↔ ScanAllows usable blocking rest := by
  show usable a ∨ (¬ blocking a ∧ ScanAllows usable blocking rest) ↔ _
  rw [or_iff_right hu, and_iff_right hb]

/-- A scan ends in favour at a usable item with nothing blocking before it. -/
theorem scanAllows_iff {xs : List α} :
    ScanAllows usable blocking xs ↔
      ∃ before a after, xs = before ++ a :: after ∧ usable a ∧ ∀ b ∈ before, ¬ blocking b := by
  induction xs with
  | nil => simp [ScanAllows]
  | cons x xs ih =>
      constructor
      · rintro (hx | ⟨hx, hxs⟩)
        · exact ⟨[], x, xs, rfl, hx, by simp⟩
        · obtain ⟨before, a, after, rfl, ha, hbefore⟩ := ih.mp hxs
          refine ⟨x :: before, a, after, rfl, ha, fun b hb => ?_⟩
          rcases List.mem_cons.mp hb with rfl | hb
          · exact hx
          · exact hbefore b hb
      · rintro ⟨before, a, after, heq, ha, hbefore⟩
        cases before with
        | nil =>
            obtain ⟨rfl, _⟩ := List.cons.inj heq
            exact .inl ha
        | cons b before =>
            obtain ⟨rfl, htail⟩ := List.cons.inj heq
            refine .inr ⟨hbefore x (List.mem_cons_self ..), ih.mpr ⟨before, a, after, htail, ha, ?_⟩⟩
            exact fun b hb => hbefore b (List.mem_cons_of_mem _ hb)

/-- Where nothing blocks, a scan only asks whether some item is usable. -/
theorem scanAllows_iff_exists {xs : List α} (hblock : ∀ a ∈ xs, ¬ blocking a) :
    ScanAllows usable blocking xs ↔ ∃ a ∈ xs, usable a := by
  rw [scanAllows_iff]
  constructor
  · rintro ⟨before, a, after, rfl, ha, _⟩
    exact ⟨a, List.mem_append_right _ (List.mem_cons_self ..), ha⟩
  · rintro ⟨a, hmem, ha⟩
    obtain ⟨before, after, rfl⟩ := List.append_of_mem hmem
    exact ⟨before, a, after, rfl, ha, fun b hb => hblock b (List.mem_append_left _ hb)⟩

/-- **A list that holds a usable item is decided in its favour unless a blocking one shadows
it.** -/
theorem scanAllows_iff_not_shadowed (hdisjoint : ∀ a, usable a → ¬ blocking a) {xs : List α}
    (hex : ∃ a ∈ xs, usable a) :
    ScanAllows usable blocking xs ↔ ¬ Shadowed usable blocking xs := by
  induction xs with
  | nil =>
      obtain ⟨a, ha, _⟩ := hex
      cases ha
  | cons x xs ih =>
      by_cases hx : usable x
      · refine iff_of_true (.inl hx) ?_
        rintro ⟨before, a, after, heq, ha, hbefore⟩
        cases before with
        | nil =>
            obtain ⟨rfl, _⟩ := List.cons.inj heq
            exact hdisjoint x hx ha
        | cons b before =>
            obtain ⟨rfl, _⟩ := List.cons.inj heq
            exact hbefore x (List.mem_cons_self ..) hx
      · by_cases hb : blocking x
        · exact iff_of_false (not_scanAllows_cons_blocking hx hb)
            (not_not.mpr ⟨[], x, xs, rfl, hb, by simp⟩)
        · have hex' : ∃ a ∈ xs, usable a := by
            obtain ⟨a, ha, hu⟩ := hex
            rcases List.mem_cons.mp ha with rfl | ha
            · exact absurd hu hx
            · exact ⟨a, ha, hu⟩
          have hshadow : Shadowed usable blocking (x :: xs) ↔ Shadowed usable blocking xs := by
            constructor
            · rintro ⟨before, a, after, heq, ha, hbefore⟩
              cases before with
              | nil =>
                  obtain ⟨rfl, _⟩ := List.cons.inj heq
                  exact absurd ha hb
              | cons b before =>
                  obtain ⟨rfl, htail⟩ := List.cons.inj heq
                  exact ⟨before, a, after, htail, ha,
                    fun c hc => hbefore c (List.mem_cons_of_mem _ hc)⟩
            · rintro ⟨before, a, after, rfl, ha, hbefore⟩
              refine ⟨x :: before, a, after, rfl, ha, fun c hc => ?_⟩
              rcases List.mem_cons.mp hc with rfl | hc
              · exact hx
              · exact hbefore c hc
          rw [hshadow, ← ih hex', scanAllows_cons_passed hx hb]

end SharedOS.Foundation
