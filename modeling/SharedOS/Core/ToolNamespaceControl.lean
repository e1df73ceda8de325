/-
SharedOS.Core.ToolNamespaceControl — the patch a host applies to its selection of tool namespaces.

The selection and the patch are both bounded, and what the patch makes of the selection is not. It
is the set one expects, in collation order, and the patch leaves it as it is (`applied_spec`). Only
its size can put it outside the contract.
-/
import Mathlib.Data.Finset.Card
import SharedOS.Contracts.Parsed
import SharedOS.Foundation.Listing
import SharedOS.Foundation.StableSort

namespace SharedOS.Core

open SharedOS.Foundation SharedOS.Contracts

/-! ## Sets in the order of insertion -/

/-- `Set.prototype.add`. -/
def setAdd (names : List JsString) (name : JsString) : List JsString := setByKey id names name

/-- `Set.prototype.delete`. -/
def setDelete (names : List JsString) (name : JsString) : List JsString :=
  names.filter fun other => other ≠ name

theorem setAdd_present {names : List JsString} {name : JsString} (h : name ∈ names) :
    setAdd names name = names := by
  unfold setAdd setByKey
  rw [if_pos (List.any_eq_true.mpr ⟨name, h, decide_eq_true rfl⟩)]
  refine (List.map_congr_left fun other _ => ?_).trans (List.map_id _)
  by_cases hother : id other = id name
  · rw [if_pos hother]
    exact hother.symm
  · rw [if_neg hother]
    rfl

theorem mem_setAdd {names : List JsString} {name other : JsString} :
    other ∈ setAdd names name ↔ other ∈ names ∨ other = name := by
  have h := @mem_keys_setByKey _ _ _ id names name other
  rwa [List.map_id, List.map_id] at h

theorem nodup_setAdd {names : List JsString} {name : JsString} (h : names.Nodup) :
    (setAdd names name).Nodup := by
  by_cases hname : name ∈ names
  · rwa [setAdd_present hname]
  · unfold setAdd
    rw [setByKey_fresh (by rwa [List.map_id])]
    exact List.nodup_append.mpr ⟨h, List.nodup_singleton _, fun a ha b hb hab =>
      hname (List.mem_singleton.mp hb ▸ hab ▸ ha)⟩

theorem mem_addAll {added names : List JsString} {other : JsString} :
    other ∈ added.foldl setAdd names ↔ other ∈ names ∨ other ∈ added := by
  induction added generalizing names with
  | nil => simp
  | cons name rest ih =>
      rw [List.foldl_cons, ih, mem_setAdd, List.mem_cons, or_assoc]

theorem nodup_addAll {added names : List JsString} (h : names.Nodup) :
    (added.foldl setAdd names).Nodup := by
  induction added generalizing names with
  | nil => exact h
  | cons name rest ih => exact ih (nodup_setAdd h)

theorem addAll_present {added names : List JsString} (h : ∀ name ∈ added, name ∈ names) :
    added.foldl setAdd names = names := by
  induction added with
  | nil => rfl
  | cons name rest ih =>
      rw [List.foldl_cons, setAdd_present (h name List.mem_cons_self)]
      exact ih fun other hother => h other (List.mem_cons_of_mem _ hother)

/-- Deleting one name after another leaves the names that are not deleted. -/
theorem deleteAll_eq {deleted names : List JsString} :
    deleted.foldl setDelete names = names.filter fun other => other ∉ deleted := by
  induction deleted generalizing names with
  | nil => simp
  | cons name rest ih =>
      rw [List.foldl_cons, ih]
      unfold setDelete
      rw [List.filter_filter]
      refine List.filter_congr fun other _ => ?_
      by_cases hname : other = name <;> by_cases hrest : other ∈ rest <;> simp [hname, hrest]

/-! ## The patch -/

section Apply

variable [HostPlatform]

/-- `applyToolNamespaceUpdate`. A selection or an update that its schema refuses throws. -/
def applyToolNamespaceUpdate (current : List JsString) (update : ToolNamespaceUpdate) :
    Option (List JsString) := do
  let parsedCurrent ← enabledToolNamespacesSchema current
  let parsedUpdate ← toolNamespaceUpdateSchema update
  let enabled := parsedCurrent.foldl setAdd []
  let enabled := (parsedUpdate.enable.getD []).foldl setAdd enabled
  let enabled := (parsedUpdate.disable.getD []).foldl setDelete enabled
  some (enabled.insertionSort fun left right => HostPlatform.localeCompare left right ≤ 0)

/-- What the update implies: the selection with what it enables, without what it disables. -/
def impliedSelection (selection : List JsString) (patch : ToolNamespaceUpdate) : Finset JsString :=
  (selection.toFinset ∪ (patch.enable.getD []).toFinset) \ (patch.disable.getD []).toFinset

omit [HostPlatform] in
theorem mem_impliedSelection {selection : List JsString} {patch : ToolNamespaceUpdate}
    {name : JsString} :
    name ∈ impliedSelection selection patch ↔
      (name ∈ selection ∨ name ∈ patch.enable.getD []) ∧ name ∉ patch.disable.getD [] := by
  unfold impliedSelection
  simp only [Finset.mem_sdiff, Finset.mem_union, List.mem_toFinset]

/-- The set the code sorts. -/
def enabledNames (selection : List JsString) (patch : ToolNamespaceUpdate) : List JsString :=
  ((patch.enable.getD []).foldl setAdd selection).filter fun name => name ∉ patch.disable.getD []

variable {current selection : List JsString} {update patch : ToolNamespaceUpdate}

theorem applyToolNamespaceUpdate_eq (hcurrent : enabledToolNamespacesSchema current = some selection)
    (hupdate : toolNamespaceUpdateSchema update = some patch) :
    applyToolNamespaceUpdate current update =
      some ((enabledNames selection patch).insertionSort
        fun left right => HostPlatform.localeCompare left right ≤ 0) := by
  have hnodup := (enabledToolNamespacesSchema_eq_self_iff.mp
    (enabledToolNamespacesSchema_idem hcurrent)).2.1
  have hset : selection.foldl setAdd [] = selection :=
    foldl_setByKey_fresh (by rwa [List.map_id, List.nil_append])
  unfold applyToolNamespaceUpdate
  rw [hcurrent, hupdate]
  show some (List.insertionSort _ _) = _
  rw [hset, deleteAll_eq]
  rfl

omit [HostPlatform] in
theorem mem_enabledNames {name : JsString} :
    name ∈ enabledNames selection patch ↔ name ∈ impliedSelection selection patch := by
  unfold enabledNames
  rw [List.mem_filter, mem_addAll, mem_impliedSelection]
  simp

omit [HostPlatform] in
theorem nodup_enabledNames (h : selection.Nodup) : (enabledNames selection patch).Nodup :=
  (nodup_addAll h).filter _

/-- **What the patch makes of a selection**: each implied name once, in collation order. -/
theorem applied_spec (hcurrent : enabledToolNamespacesSchema current = some selection)
    (hupdate : toolNamespaceUpdateSchema update = some patch) {result : List JsString}
    (h : applyToolNamespaceUpdate current update = some result) :
    result.Nodup ∧ (∀ name, name ∈ result ↔ name ∈ impliedSelection selection patch) ∧
      ∀ name ∈ result, identifierSchema name = some name := by
  rw [applyToolNamespaceUpdate_eq hcurrent hupdate] at h
  obtain rfl := Option.some.inj h
  have hperm := List.perm_insertionSort (fun left right => HostPlatform.localeCompare left right ≤ 0)
    (enabledNames selection patch)
  obtain ⟨-, hnodup, hnames⟩ := enabledToolNamespacesSchema_eq_self_iff.mp
    (enabledToolNamespacesSchema_idem hcurrent)
  refine ⟨hperm.nodup_iff.mpr (nodup_enabledNames hnodup), fun name => ?_, fun name hname => ?_⟩
  · rw [hperm.mem_iff, mem_enabledNames]
  · rw [hperm.mem_iff, mem_enabledNames, mem_impliedSelection] at hname
    rcases hname.1 with hin | hin
    · exact hnames name hin
    · cases henable : patch.enable with
      | none =>
          rw [henable] at hin
          exact absurd hin List.not_mem_nil
      | some enable =>
          have hparsed := optionalSchema_idem (fun _ _ => enabledToolNamespacesSchema_idem)
            (of_toolNamespaceUpdateSchema hupdate).1
          rw [henable] at hparsed hin
          obtain ⟨_, hself, heq⟩ := Option.map_eq_some_iff.mp hparsed
          rw [Option.some.inj heq] at hself
          exact (enabledToolNamespacesSchema_eq_self_iff.mp hself).2.2 name hin

/-- A list without repetitions is as long as its set is large. -/
theorem applied_length (hcurrent : enabledToolNamespacesSchema current = some selection)
    (hupdate : toolNamespaceUpdateSchema update = some patch) {result : List JsString}
    (h : applyToolNamespaceUpdate current update = some result) :
    result.length = (impliedSelection selection patch).card := by
  obtain ⟨hnodup, hmem, -⟩ := applied_spec hcurrent hupdate h
  rw [← List.toFinset_card_of_nodup hnodup]
  refine congrArg Finset.card (Finset.ext fun name => ?_)
  rw [List.mem_toFinset, hmem]

/-- **Only its size puts the result outside the contract.** -/
theorem applied_accepted_iff (hcurrent : enabledToolNamespacesSchema current = some selection)
    (hupdate : toolNamespaceUpdateSchema update = some patch) {result : List JsString}
    (h : applyToolNamespaceUpdate current update = some result) :
    enabledToolNamespacesSchema result = some result ↔
      (impliedSelection selection patch).card ≤ 256 := by
  obtain ⟨hnodup, -, hnames⟩ := applied_spec hcurrent hupdate h
  rw [enabledToolNamespacesSchema_eq_self_iff, applied_length hcurrent hupdate h]
  exact ⟨fun haccepted => haccepted.1, fun hcard => ⟨hcard, hnodup, hnames⟩⟩

/-- **The patch leaves what it made as it is.** Sorted names stay in their places, the tied ones
too. -/
theorem applied_again (hcollation : ConsistentComparison HostPlatform.localeCompare)
    (hcurrent : enabledToolNamespacesSchema current = some selection)
    (hupdate : toolNamespaceUpdateSchema update = some patch) {result : List JsString}
    (h : applyToolNamespaceUpdate current update = some result)
    (haccepted : enabledToolNamespacesSchema result = some result) :
    applyToolNamespaceUpdate result update = some result := by
  have : Std.Total fun left right : JsString => HostPlatform.localeCompare left right ≤ 0 :=
    ⟨hcollation.total⟩
  have : IsTrans JsString fun left right => HostPlatform.localeCompare left right ≤ 0 :=
    ⟨hcollation.trans⟩
  obtain ⟨-, hmem, -⟩ := applied_spec hcurrent hupdate h
  have hadded : (patch.enable.getD []).foldl setAdd result = result := by
    refine addAll_present fun name hname => ?_
    rw [hmem, mem_impliedSelection]
    exact ⟨.inr hname, fun hdisable =>
      (of_toolNamespaceUpdateSchema hupdate).2.2.2 name hdisable hname⟩
  have hkept : enabledNames result patch = result := by
    unfold enabledNames
    rw [hadded, List.filter_eq_self]
    intro name hname
    rw [hmem, mem_impliedSelection] at hname
    exact decide_eq_true hname.2
  have hsorted : result.Pairwise fun left right => HostPlatform.localeCompare left right ≤ 0 := by
    rw [applyToolNamespaceUpdate_eq hcurrent hupdate] at h
    rw [← Option.some.inj h]
    exact List.pairwise_insertionSort _ _
  rw [applyToolNamespaceUpdate_eq haccepted hupdate, hkept, hsorted.insertionSort_eq]

end Apply

end SharedOS.Core
