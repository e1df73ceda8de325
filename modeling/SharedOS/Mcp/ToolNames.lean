/-
SharedOS.Mcp.ToolNames — where a harness's name for a tool leads.

An alias is a lossy rewrite of a name, so two tools can share one, and a tool's own name can be
another's alias. The exact name is looked for first: there it wins over every alias. Elsewhere an
alias leads to the one tool that has it, or nowhere (`resolveCanonicalName_alias`).

The rewrite is `portableToolName`: a transport that cannot carry a dot shows each tool under its name
with the dots made underscores. A name that two tools share so is nobody's. Guessing would run a tool
that was not asked for, so such a name, like one that nothing matches, stays what it is.
-/
import SharedOS.Mcp.Server

namespace SharedOS.Mcp

open SharedOS.Foundation SharedOS.Kernel

variable {tools : List PublishedToolDefinition} {exposed : JsString}

/-- A published name is what it says. -/
theorem resolveCanonicalName_published {tool : PublishedToolDefinition} (h : tool ∈ tools) :
    resolveCanonicalName tools tool.name = tool.name := by
  unfold resolveCanonicalName
  exact if_pos (List.any_eq_true.mpr ⟨tool, h, decide_eq_true rfl⟩)

/-- Any other name leads to the only tool it is an alias of, or stays what it is. -/
theorem resolveCanonicalName_other (h : ∀ tool ∈ tools, tool.name ≠ exposed) :
    resolveCanonicalName tools exposed = exposed ∨
      ∃ only, (tools.filter fun tool => portableToolName tool.name = exposed) = [only] ∧
        resolveCanonicalName tools exposed = only.name := by
  unfold resolveCanonicalName
  rw [if_neg fun hany => ?_]
  · split
    · next only hfilter => exact .inr ⟨only, hfilter, rfl⟩
    · exact .inl rfl
  · obtain ⟨tool, htool, hname⟩ := List.any_eq_true.mp hany
    exact h tool htool (of_decide_eq_true hname)

/-- The answer is published, or is what was asked. -/
theorem resolveCanonicalName_known (tools : List PublishedToolDefinition) (exposed : JsString) :
    (∃ tool ∈ tools, tool.name = resolveCanonicalName tools exposed) ∨
      resolveCanonicalName tools exposed = exposed := by
  by_cases hpublished : ∃ tool ∈ tools, tool.name = exposed
  · obtain ⟨tool, htool, rfl⟩ := hpublished
    exact .inr (resolveCanonicalName_published htool)
  · have hnone : ∀ tool ∈ tools, tool.name ≠ exposed := by
      intro tool htool hname
      exact hpublished ⟨tool, htool, hname⟩
    rcases resolveCanonicalName_other hnone with hsame | ⟨only, hfilter, hanswer⟩
    · exact .inr hsame
    · have honly : only ∈ tools.filter fun tool => portableToolName tool.name = exposed := by
        rw [hfilter]
        exact List.mem_singleton_self only
      exact .inl ⟨only, (List.mem_filter.mp honly).1, hanswer.symm⟩

/-- **Where the alias of a tool leads.** Unless it is another tool's own name, to that tool or to a
name outside the catalogue. Where it is another tool's own name, to that name. -/
theorem resolveCanonicalName_alias {tool : PublishedToolDefinition} (h : tool ∈ tools) :
    ((∀ other ∈ tools, other.name = portableToolName tool.name → other.name = tool.name) →
      resolveCanonicalName tools (portableToolName tool.name) = tool.name ∨
        ∀ other ∈ tools, other.name ≠ resolveCanonicalName tools (portableToolName tool.name)) ∧
    (∀ other ∈ tools, other.name = portableToolName tool.name →
      resolveCanonicalName tools (portableToolName tool.name) = other.name) ∧
    ∀ exposed, (∃ known ∈ tools, known.name = resolveCanonicalName tools exposed) ∨
      resolveCanonicalName tools exposed = exposed := by
  refine ⟨fun hown => ?_, fun other hother hname => ?_, resolveCanonicalName_known tools⟩
  · by_cases hpublished : ∃ other ∈ tools, other.name = portableToolName tool.name
    · obtain ⟨other, hother, hname⟩ := hpublished
      refine .inl ?_
      rw [← hname, resolveCanonicalName_published hother]
      exact hown other hother hname
    · have hnone : ∀ other ∈ tools, other.name ≠ portableToolName tool.name := by
        intro other hother hname
        exact hpublished ⟨other, hother, hname⟩
      rcases resolveCanonicalName_other hnone with hsame | ⟨only, hfilter, hanswer⟩
      · refine .inr fun other hother => ?_
        rw [hsame]
        exact hnone other hother
      · -- the tool is among those that have the alias, so it is the only one
        have hmem : tool ∈ tools.filter fun other =>
            portableToolName other.name = portableToolName tool.name :=
          List.mem_filter.mpr ⟨h, decide_eq_true rfl⟩
        rw [hfilter, List.mem_singleton] at hmem
        rw [← hmem] at hanswer
        exact .inl hanswer
  · rw [← hname]
    exact resolveCanonicalName_published hother

namespace Sample

/-- A published tool of this name. -/
def published (name : JsString) : PublishedToolDefinition where
  name := name
  description := "a tool"
  inputSchema := .obj []
  outputSchema := none
  annotations := { readOnlyHint := true, destructiveHint := none, idempotentHint := none }
  metadata := { «namespace» := "files", source := "sharedos" }

/-- A catalogue in which one tool's name is the alias of another. -/
def shadowing : List PublishedToolDefinition := [published "files.search", published "files_search"]

end Sample

theorem resolveCanonicalName_alias_search :
    Sample.published "files.search" ∈ [Sample.published "files.search"] ∧
      (resolveCanonicalName [Sample.published "files.search"] "files_search" = "files.search" ∨
        ∀ other ∈ [Sample.published "files.search"],
          other.name ≠ resolveCanonicalName [Sample.published "files.search"] "files_search") :=
  ⟨List.mem_singleton_self _,
    (@resolveCanonicalName_alias [Sample.published "files.search"] _
      (List.mem_singleton_self _)).1 fun other hother _ => by rw [List.mem_singleton.mp hother]⟩

/-- Distinct names, and the alias of the first tool leads to the second. -/
theorem alias_leads_to_another :
    (Sample.shadowing.map PublishedToolDefinition.name).Nodup ∧
    Sample.published "files.search" ∈ Sample.shadowing ∧
    Sample.published "files_search" ∈ Sample.shadowing ∧
    resolveCanonicalName Sample.shadowing (portableToolName (Sample.published "files.search").name) =
      (Sample.published "files_search").name ∧
    (Sample.published "files_search").name ≠ (Sample.published "files.search").name :=
  ⟨by decide +kernel, List.mem_cons_self, List.mem_cons_of_mem _ List.mem_cons_self,
    by decide +kernel, by decide +kernel⟩

end SharedOS.Mcp
