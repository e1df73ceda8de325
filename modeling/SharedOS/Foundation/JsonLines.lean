/-
SharedOS.Foundation.JsonLines — JSON texts on lines of their own.

A stream of JSON values is written as one text a line. No text holds a line break, whatever strings
are in it, since a string literal escapes every control character (`stringify_printable`). So the
lines are told apart again by their breaks alone (`splitOn_jsonLines`), and each is read back.
-/
import SharedOS.Foundation.JsonText

namespace SharedOS.Foundation

/-- What ends a line. -/
def lineFeed : CodeUnit := 0x0A

/-! ## No control characters -/

/-- The text has no control character. -/
def Printable (text : JsString) : Prop := ∀ u ∈ text, 0x20 ≤ u

instance (text : JsString) : Decidable (Printable text) :=
  List.decidableBAll (fun u => 0x20 ≤ u) text

theorem printable_append {s t : JsString} (hs : Printable s) (ht : Printable t) :
    Printable (s ++ t) := by
  intro u hu
  rcases List.mem_append.mp hu with h | h
  · exact hs u h
  · exact ht u h

theorem printable_cons {u : CodeUnit} {s : JsString} (hu : 0x20 ≤ u) (hs : Printable s) :
    Printable (u :: s) := by
  intro v hv
  rcases List.mem_cons.mp hv with rfl | h
  · exact hu
  · exact hs v h

theorem lineFeed_notMem {text : JsString} (h : Printable text) : lineFeed ∉ text := by
  intro hmem
  exact absurd (h lineFeed hmem) (by decide)

theorem hexDigit_printable (n : Fin 16) : 0x20 ≤ hexDigit n.val := by
  revert n
  decide

theorem unicodeEscape_printable (u : CodeUnit) : Printable (unicodeEscape u) := by
  have hdigit : ∀ n, 0x20 ≤ hexDigit (n % 16) := fun n =>
    hexDigit_printable ⟨n % 16, Nat.mod_lt n (by decide)⟩
  simp only [Printable, unicodeEscape, List.mem_cons, List.not_mem_nil, or_false, forall_eq_or_imp,
    forall_eq]
  exact ⟨by decide, by decide, hdigit _, hdigit _, hdigit _, hdigit _⟩

theorem escapeUnit_printable (u : CodeUnit) : Printable (escapeUnit u) := by
  unfold escapeUnit
  cases hshort : shortEscape u with
  | some e =>
      refine printable_cons (by decide) (printable_cons ?_ fun v hv => absurd hv List.not_mem_nil)
      -- the letters and marks of the short escapes
      unfold shortEscape at hshort
      repeat' split at hshort
      all_goals first | (obtain rfl := Option.some.inj hshort; decide) | cases hshort
  | none =>
      by_cases hcontrol : u < 0x20
      · simp only [hcontrol, if_true]
        exact unicodeEscape_printable u
      · simp only [hcontrol, if_false]
        exact printable_cons (not_lt.mp hcontrol) fun v hv => absurd hv List.not_mem_nil

theorem surrogate_printable {u : CodeUnit}
    (h : isHighSurrogate u = true ∨ isLowSurrogate u = true) : 0x20 ≤ u := by
  have hle : (0xD800 : CodeUnit) ≤ u ∨ (0xDC00 : CodeUnit) ≤ u := by
    rcases h with h | h
    · exact .inl (by simpa using (Bool.and_eq_true_iff.mp h).1)
    · exact .inr (by simpa using (Bool.and_eq_true_iff.mp h).1)
  rcases hle with h | h
  · exact le_trans (by decide) h
  · exact le_trans (by decide) h

theorem quoteUnits_printable (s : JsString) : Printable (quoteUnits s) := by
  fun_induction quoteUnits s with
  | case1 => exact fun u hu => absurd hu List.not_mem_nil
  | case2 u => exact unicodeEscape_printable u
  | case3 u => exact escapeUnit_printable u
  | case4 u v rest hpair ih =>
      have hpair := Bool.and_eq_true_iff.mp hpair
      exact printable_cons (surrogate_printable (.inl hpair.1))
        (printable_cons (surrogate_printable (.inr hpair.2)) ih)
  | case5 u v rest _ _ ih => exact printable_append (unicodeEscape_printable u) ih
  | case6 u v rest _ _ ih => exact printable_append (escapeUnit_printable u) ih

theorem quote_printable (s : JsString) : Printable (quote s) :=
  printable_cons (by decide) (printable_append (quoteUnits_printable s)
    (printable_cons (by decide) fun u hu => absurd hu List.not_mem_nil))

theorem commaJoin_printable {texts : List JsString} (h : ∀ text ∈ texts, Printable text) :
    Printable (commaJoin texts) := by
  cases texts with
  | nil => exact fun u hu => absurd hu List.not_mem_nil
  | cons text rest =>
      refine printable_append (h text List.mem_cons_self) fun u hu => ?_
      obtain ⟨other, hother, hu⟩ := List.mem_flatMap.mp hu
      exact printable_cons (by decide) (h other (List.mem_cons_of_mem _ hother)) u hu

theorem isNumberUnit_printable {u : CodeUnit} (h : Json.isNumberUnit u = true) : 0x20 ≤ u := by
  simp only [Json.isNumberUnit, Bool.or_eq_true, Bool.and_eq_true, decide_eq_true_eq,
    beq_iff_eq] at h
  rcases h with (((⟨h, -⟩ | rfl) | rfl) | rfl) | rfl
  · exact le_trans (by decide) h
  all_goals decide

/-- **JSON text has no control character.** -/
theorem stringify_printable {fmt : ℚ → JsString} {v : Json}
    (hv : v.NumbersIn (Json.ReadsBack fmt)) : Printable (v.stringify fmt) := by
  induction v with
  | null => exact (by decide : Printable ("null" : JsString))
  | bool b =>
      cases b with
      | true => exact (by decide : Printable ("true" : JsString))
      | false => exact (by decide : Printable ("false" : JsString))
  | num x =>
      cases hv with
      | num hx =>
          cases x with
          | finite q => exact fun u hu => isNumberUnit_printable (hx.units q rfl u hu)
          | negZero => exact (by decide : Printable ("0" : JsString))
          | nan | posInfinity | negInfinity => exact (by decide : Printable ("null" : JsString))
  | str s => exact quote_printable s
  | arr items ih =>
      cases hv with
      | arr hitems =>
          simp only [Json.stringify, Json.stringifyItems_eq_map]
          refine printable_cons (by decide) (printable_append (commaJoin_printable ?_) (by decide))
          intro text htext
          obtain ⟨item, hitem, rfl⟩ := List.mem_map.mp htext
          exact ih item hitem (hitems item hitem)
  | obj entries ih =>
      cases hv with
      | obj hentries =>
          simp only [Json.stringify, Json.stringifyEntries_eq_map, List.map_map]
          refine printable_cons (by decide) (printable_append (commaJoin_printable ?_) (by decide))
          intro text htext
          obtain ⟨entry, hentry, rfl⟩ := List.mem_map.mp htext
          exact printable_append (quote_printable _)
            (printable_cons (by decide) (ih entry hentry (hentries entry hentry)))

/-! ## Lines -/

/-- Each text, and a line break after it. -/
def jsonLines (texts : List JsString) : JsString := texts.flatMap fun text => text ++ [lineFeed]

/-- **The lines are told apart by their breaks.** After the last of them there is nothing. -/
theorem splitOn_jsonLines {texts : List JsString} (h : ∀ text ∈ texts, Printable text) :
    (jsonLines texts).splitOn lineFeed = texts ++ [[]] := by
  induction texts with
  | nil => rfl
  | cons text rest ih =>
      have hrest := ih fun other hother => h other (List.mem_cons_of_mem _ hother)
      show (text ++ [lineFeed] ++ jsonLines rest).splitOn lineFeed = _
      rw [List.append_assoc, List.singleton_append,
        List.splitOn_append_cons_self_of_not_mem (lineFeed_notMem (h text List.mem_cons_self)), hrest]
      rfl

end SharedOS.Foundation
