/-
SharedOS.Adapters.WireNames — how a tool name is spoken to a model, and read back.

A dot is written as an underscore, so two names may be spelled alike. A catalogue in which two are is
refused, and over one that is taken the spelling is read back by the catalogue's own map. What is not in
the map is read by turning the underscores back, and even then a name of the catalogue is reached only
from its own spelling.
-/
import SharedOS.Adapters.ModelDriver

namespace SharedOS.Adapters

open SharedOS.Foundation

namespace ToolNameCodec

/-- `#toWire`, and for a name it lacks the spelling by itself. -/
def toWire (codec : ToolNameCodec) (name : JsString) : JsString :=
  ((codec.names.find? fun entry => entry.2 = name).map Prod.fst).getD (wireName name)

/-! ## Spelling -/

/-- `name.replaceAll("_", ".")`, where the map has no name. -/
theorem fromWire_of_lookup_none {codec : ToolNameCodec} {wire : JsString}
    (h : codec.names.lookup wire = none) :
    codec.fromWire wire = wire.map fun u => if u = 0x5F then 0x2E else u := by
  unfold fromWire
  rw [h, Option.getD_none]

/-- Turning the underscores into dots does not change how a name is spelled. -/
theorem wireName_dotted (wire : JsString) :
    wireName (wire.map fun u => if u = 0x5F then 0x2E else u) = wireName wire := by
  unfold wireName
  rw [List.map_map]
  apply List.map_congr_left
  intro u _
  by_cases hunderscore : u = 0x5F
  · simp [hunderscore]
  · simp [hunderscore]

/-- A spelling of the provider's alphabet has no dot. -/
theorem wireName_of_isWireName {wire : JsString} (h : isWireName wire = true) :
    wireName wire = wire := by
  unfold isWireName at h
  obtain ⟨-, hall⟩ := Bool.and_eq_true_iff.mp h
  unfold wireName
  conv_rhs => rw [← List.map_id wire]
  apply List.map_congr_left
  intro u hu
  have hunit := List.all_eq_true.mp hall u hu
  have hdot : u ≠ 0x2E := by
    rintro rfl
    exact absurd hunit (by decide)
  simp [hdot]

/-! ## The names taken so far -/

/-- The codec holds the names seen, each under its own spelling, and no other. -/
structure Holds (seen : List JsString) (codec : ToolNameCodec) : Prop where
  entries : ∀ entry ∈ codec.names,
    entry.1 = wireName entry.2 ∧ isWireName entry.1 = true ∧ entry.2 ∈ seen
  listed : ∀ name ∈ seen, codec.names.lookup (wireName name) = some name

/-- What lets a catalogue be offered: every name has a spelling, and no two names have one. -/
structure Offerable (names : List JsString) : Prop where
  spelled : ∀ name ∈ names, isWireName (wireName name) = true
  apart : ∀ a ∈ names, ∀ b ∈ names, wireName a = wireName b → a = b

variable {seen : List JsString} {codec codec' : ToolNameCodec}

theorem Holds.of_lookup (h : Holds seen codec) {wire name : JsString}
    (hlookup : codec.names.lookup wire = some name) :
    wire = wireName name ∧ isWireName wire = true ∧ name ∈ seen := by
  obtain ⟨before, after, hnames, -⟩ := List.lookup_eq_some_iff.mp hlookup
  have hmem : (wire, name) ∈ codec.names := by
    rw [hnames]
    simp
  exact h.entries (wire, name) hmem

theorem Holds.offerable (h : Holds seen codec) : Offerable seen := by
  constructor
  · intro name hname
    exact (h.of_lookup (h.listed name hname)).2.1
  · intro a ha b hb hsame
    have hlisted := h.listed a ha
    rw [hsame, h.listed b hb] at hlisted
    exact (Option.some.inj hlisted).symm

theorem holds_empty : Holds [] { names := [] } := ⟨nofun, nofun⟩

/-- The step lemma of a name that is taken. -/
theorem holds_add (h : Holds seen codec) {name : JsString} (hadd : codec.add name = some codec') :
    Holds (seen ++ [name]) codec' := by
  unfold add at hadd
  dsimp only at hadd
  split at hadd
  · cases hadd
  · next hwire =>
      rw [Bool.not_eq_true', Bool.not_eq_false] at hwire
      split at hadd
      · next clash hclash =>
          split at hadd
          · next hsame =>
              -- the name is in the catalogue twice
              cases hadd
              subst hsame
              constructor
              · intro entry hentry
                obtain ⟨hspelled, hunits, hseen⟩ := h.entries entry hentry
                exact ⟨hspelled, hunits, List.mem_append_left _ hseen⟩
              · intro other hother
                rcases List.mem_append.mp hother with hother | hother
                · exact h.listed other hother
                · rw [List.mem_singleton.mp hother]
                  exact hclash
          · cases hadd
      · next hfree =>
          cases hadd
          constructor
          · intro entry hentry
            rcases List.mem_cons.mp hentry with rfl | hentry
            · exact ⟨rfl, hwire, by simp⟩
            · obtain ⟨hspelled, hunits, hseen⟩ := h.entries entry hentry
              exact ⟨hspelled, hunits, List.mem_append_left _ hseen⟩
          · intro other hother
            rcases List.mem_append.mp hother with hother | hother
            · have hlisted := h.listed other hother
              have hne : wireName other ≠ wireName name := by
                intro hsame
                rw [hsame, hfree] at hlisted
                cases hlisted
              rw [List.lookup_cons, beq_false_of_ne hne]
              exact hlisted
            · rw [List.mem_singleton.mp hother]
              simp

/-- A name is refused exactly where it has no spelling, or another name has its spelling. -/
theorem add_eq_none_iff (h : Holds seen codec) {name : JsString} :
    codec.add name = none ↔
      isWireName (wireName name) = false ∨ ∃ b ∈ seen, wireName b = wireName name ∧ b ≠ name := by
  unfold add
  dsimp only
  cases hwire : isWireName (wireName name) with
  | false => simp
  | true =>
      cases hlookup : codec.names.lookup (wireName name) with
      | none =>
          have hnone : ¬ ∃ b ∈ seen, wireName b = wireName name ∧ b ≠ name := by
            rintro ⟨b, hb, hsame, -⟩
            have hlisted := h.listed b hb
            rw [hsame, hlookup] at hlisted
            cases hlisted
          simp [hnone]
      | some clash =>
          obtain ⟨hspelled, -, hseen⟩ := h.of_lookup hlookup
          by_cases hsame : clash = name
          · have hnone : ¬ ∃ b ∈ seen, wireName b = wireName name ∧ b ≠ name := by
              rintro ⟨b, hb, hb', hne⟩
              have hlisted := h.listed b hb
              rw [hb', hlookup, hsame] at hlisted
              exact hne (Option.some.inj hlisted).symm
            simp [hsame, hnone]
          · have hclash : ∃ b ∈ seen, wireName b = wireName name ∧ b ≠ name :=
              ⟨clash, hseen, hspelled.symm, hsame⟩
            simp [hsame, hclash]

/-- The run lemma: the rest of a catalogue is taken exactly where all of it can be offered. -/
theorem foldlM_add (h : Holds seen codec) (names : List JsString) :
    (∀ codec', names.foldlM add codec = some codec' → Holds (seen ++ names) codec') ∧
      (names.foldlM add codec = none → ¬ Offerable (seen ++ names)) := by
  induction names generalizing seen codec with
  | nil =>
      constructor
      · intro codec' hfold
        cases hfold
        rwa [List.append_nil]
      · exact nofun
  | cons name names ih =>
      rw [List.foldlM_cons]
      cases hadd : codec.add name with
      | none =>
          constructor
          · exact nofun
          · rintro - ⟨hspelled, hapart⟩
            rcases (add_eq_none_iff h).mp hadd with hwire | ⟨b, hb, hsame, hne⟩
            · rw [hspelled name (by simp)] at hwire
              cases hwire
            · exact hne (hapart b (by simp [hb]) name (by simp) hsame)
      | some next =>
          have hnext := ih (holds_add h hadd)
          rwa [List.append_assoc] at hnext

theorem create_holds {tools : List JsString} (h : create tools = some codec) : Holds tools codec :=
  (foldlM_add holds_empty tools).1 codec h

theorem create_eq_none_iff {tools : List JsString} : create tools = none ↔ ¬ Offerable tools := by
  constructor
  · exact (foldlM_add holds_empty tools).2
  · intro hnot
    by_contra hsome
    obtain ⟨codec, hcodec⟩ := Option.ne_none_iff_exists'.mp hsome
    exact hnot (create_holds hcodec).offerable

/-! ## There and back -/

/-- Every name goes out under its spelling. -/
theorem Holds.toWire_eq (h : Holds seen codec) (name : JsString) :
    codec.toWire name = wireName name := by
  unfold toWire
  cases hfind : codec.names.find? fun entry => entry.2 = name with
  | none => rfl
  | some entry =>
      have hname : entry.2 = name := by simpa using List.find?_some hfind
      have hspelled := (h.entries entry (List.mem_of_find?_eq_some hfind)).1
      rw [hname] at hspelled
      exact hspelled

/-- A name of the catalogue is reached from no spelling but its own. -/
theorem Holds.spells (h : Holds seen codec) (wire : JsString) :
    wireName wire = codec.toWire (codec.fromWire wire) := by
  rw [h.toWire_eq]
  cases hlookup : codec.names.lookup wire with
  | none => rw [fromWire_of_lookup_none hlookup, wireName_dotted]
  | some name =>
      obtain ⟨hspelled, hunits, -⟩ := h.of_lookup hlookup
      have hread : codec.fromWire wire = name := by
        unfold fromWire
        rw [hlookup, Option.getD_some]
      rw [hread, ← hspelled, wireName_of_isWireName hunits]

/-- **The codec spells its names apart and reads each back**, no text reaches a name but the one it
spells, and a catalogue is refused exactly where that cannot be. -/
theorem wire_names_round_trip :
    (∀ (tools : List JsString) (codec : ToolNameCodec), create tools = some codec →
      Set.InjOn codec.toWire { name | name ∈ tools } ∧
      (∀ name ∈ tools, isWireName (codec.toWire name) = true) ∧
      (∀ name ∈ tools, codec.fromWire (codec.toWire name) = name) ∧
      ∀ wire, codec.fromWire wire ∈ tools → wireName wire = codec.toWire (codec.fromWire wire)) ∧
    ∀ tools : List JsString, create tools = none ↔
      (∃ a ∈ tools, ∃ b ∈ tools, a ≠ b ∧ wireName a = wireName b) ∨
        ∃ name ∈ tools, isWireName (wireName name) = false := by
  constructor
  · intro tools codec hcreate
    have hholds := create_holds hcreate
    obtain ⟨hspelled, hapart⟩ := hholds.offerable
    refine ⟨?_, ?_, ?_, ?_⟩
    · intro a ha b hb hsame
      rw [hholds.toWire_eq, hholds.toWire_eq] at hsame
      exact hapart a ha b hb hsame
    · intro name hname
      rw [hholds.toWire_eq]
      exact hspelled name hname
    · intro name hname
      rw [hholds.toWire_eq]
      unfold fromWire
      rw [hholds.listed name hname, Option.getD_some]
    · intro wire _
      exact hholds.spells wire
  · intro tools
    rw [create_eq_none_iff]
    constructor
    · intro hnot
      by_contra hneither
      push Not at hneither
      obtain ⟨hapart, hspelled⟩ := hneither
      apply hnot
      constructor
      · intro name hname
        simpa using hspelled name hname
      · intro a ha b hb hsame
        by_contra hne
        exact hapart a ha b hb hne hsame
    · rintro (⟨a, ha, b, hb, hne, hsame⟩ | ⟨name, hname, hwire⟩) ⟨hspelled, hapart⟩
      · exact hne (hapart a ha b hb hsame)
      · rw [hspelled name hname] at hwire
        cases hwire

/-- A catalogue of two names is taken, and each is read back; with the spelling of one beside it, it is
refused. -/
theorem wire_names_round_trip_two :
    (∃ codec, create ["files.read", "files_write"] = some codec ∧
      codec.fromWire (codec.toWire "files.read") = "files.read") ∧
      create ["files.read", "files_read"] = none := by
  constructor
  · obtain ⟨codec, hcodec⟩ : ∃ codec, create ["files.read", "files_write"] = some codec := ⟨_, rfl⟩
    obtain ⟨-, -, hread, -⟩ := wire_names_round_trip.1 _ codec hcodec
    exact ⟨codec, hcodec, hread "files.read" (by simp)⟩
  · refine (wire_names_round_trip.2 _).mpr (.inl ⟨"files.read", by simp, "files_read", by simp, ?_, ?_⟩)
    · decide
    · decide

end ToolNameCodec

end SharedOS.Adapters
