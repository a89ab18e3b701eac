import Veridex.Lib.Keyed
import Veridex.Scoring.Metrics

/-!
# The metric stack, in exact arithmetic

`scoring.py` over exact numbers: nothing overflows, so nothing raises. A row is what the functions read
of it: a `valid` that is `True`, a value that is a proper int, a confidence in `[0, 1]`.
-/

namespace Veridex.Scoring.Exact

open Veridex.Lib

/-- A row of `score_rows`, as the functions read it. -/
structure ScoreRow where
  agentId : String
  tickSeq : ℤ
  valid : Bool
  clvBps : Option ℤ
  windowClvBps : Option ℤ
  confidence : Option ℚ
  deriving DecidableEq

/-- `is_scored`. -/
def ScoreRow.isScored (row : ScoreRow) : Bool := row.valid && row.clvBps.isSome

/-- `row["clv_bps"]` of a scored row. -/
def ScoreRow.clv (row : ScoreRow) : ℤ := row.clvBps.getD 0

/-- `total / count`, or no average. -/
def average (total : ℤ) (count : ℕ) : Option ℚ := if count = 0 then none else some (total / count)

/-- `_max_drawdown`, from a cumulative value and its peak on. -/
def drawdownFrom (cumulative peak worst : ℤ) : List ℤ → ℤ
  | [] => worst
  | clv :: rest =>
    let cumulative := cumulative + clv
    let peak := max peak cumulative
    drawdownFrom cumulative peak (min worst (cumulative - peak)) rest

/-- `_max_drawdown`. -/
def maxDrawdown (scoredClv : List ℤ) : ℤ := drawdownFrom 0 0 0 scoredClv

/-- `_brier`. -/
def brier (scored : List ScoreRow) : Option ℚ :=
  let errors := scored.filterMap fun row => row.confidence.map fun confidence =>
    (confidence - if 0 < row.clv then 1 else 0) ^ 2
  if errors = [] then none else some (errors.sum / errors.length)

/-- The scored rows, in the order of their ticks. -/
def scoredRows (rows : List ScoreRow) : List ScoreRow :=
  sortBy ScoreRow.tickSeq (rows.filter ScoreRow.isScored)

/-- `_agent_metrics`. -/
def agentMetrics (agentId proofMode : String) (agentRows : List ScoreRow) : Metrics :=
  let scored := scoredRows agentRows
  let scoredClv := scored.map ScoreRow.clv
  let totalClvBps := scoredClv.sum
  let windowScored := agentRows.filterMap ScoreRow.windowClvBps
  let validCount := (agentRows.filter ScoreRow.valid).length
  { agentId := agentId
    avgClvBps := average totalClvBps scored.length
    totalClvBps := totalClvBps
    simPnl := totalClvBps
    brier := brier scored
    maxDrawdown := maxDrawdown scoredClv
    actionCount := scored.length
    validPct := if agentRows.length = 0 then 0 else validCount / agentRows.length * 100
    validCount := validCount
    avgWindowClvBps := average windowScored.sum windowScored.length
    totalWindowClvBps := windowScored.sum
    windowActionCount := windowScored.length
    proofMode := proofMode }

/-- The agents of a run: those it names, then those its rows add. -/
def agents (agentIds : List String) (rows : List ScoreRow) : List String :=
  (agentIds ++ rows.map ScoreRow.agentId).eraseDups

/-- The rows of one agent. -/
def rowsOf (rows : List ScoreRow) (agentId : String) : List ScoreRow :=
  rows.filter fun row => row.agentId = agentId

/-- `score_run`. -/
def scoreRun (agentIds : List String) (proofMode : String → String) (rows : List ScoreRow) :
    List Metrics :=
  ranked ((agents agentIds rows).map fun agentId =>
    agentMetrics agentId (proofMode agentId) (rowsOf rows agentId))

end Veridex.Scoring.Exact

/-!
## The metrics without overflow

Where `Scoring.scoreRun` returns, its table is the one of exact arithmetic (`scoreRun_exact`): the rows
are read once, and what a float could not hold would have raised.
-/

namespace Veridex.Scoring

open Veridex.Py Veridex.Lib Veridex.Runtime

/-- A row, as the functions read it. -/
def readRow (row : Params) : Exact.ScoreRow where
  agentId := (agentIdOf row).toOption.getD ""
  tickSeq := (intValue row "tick_seq").getD 0
  valid := (field row "valid").isTrue
  clvBps := intValue row "clv_bps"
  windowClvBps := intValue row "window_clv_bps"
  confidence := (confidence row).toOption.join

/-- The scored rows have ints for ticks, as the run writes them. -/
def IntTicks (rows : List Params) : Prop :=
  ∀ row ∈ rows, isScored row = true → ∃ tick, field row "tick_seq" = .int tick

/-- A scored row, of a row as it is read. -/
def toScored (row : Exact.ScoreRow) : ScoredRow := ⟨.fin row.tickSeq, row.clv, row.confidence⟩

section Agent

variable {rows : List Params} {agentId proofMode : String} {scored : List ScoredRow}

theorem scoredRow_read {row : Params} {found : ScoredRow}
    (htick : ∃ tick, field row "tick_seq" = .int tick)
    (h : scoredRow row ((intValue row "clv_bps").getD 0) = .ok found) :
    found = toScored (readRow row) := by
  obtain ⟨tick, htick⟩ := htick
  have hnumber : (field row "tick_seq").number = some (.fin tick) := by rw [htick]; rfl
  simp only [scoredRow, hnumber] at h
  obtain ⟨value, hvalue, h⟩ := bind_eq_ok.mp h
  obtain rfl := Except.ok.inj h
  have hint : intValue row "tick_seq" = some tick := by rw [intValue, htick]; rfl
  simp only [toScored, readRow, hint, hvalue, Except.toOption, Option.join_some, Option.getD_some,
    Exact.ScoreRow.clv]

theorem scoredRows_exact (hticks : IntTicks rows) (h : scoredRows rows = .ok scored) :
    scored = (Exact.scoredRows (rows.map readRow)).map toScored := by
  obtain ⟨found, hfound, h⟩ := bind_eq_ok.mp h
  obtain rfl := Except.ok.inj h
  have hread : found = (((rows.map readRow).filter Exact.ScoreRow.isScored)).map toScored := by
    have hall := forall₂_mem (mapM_eq_ok.mp hfound)
    rw [List.filter_map, List.map_map, ← List.forall₂_eq_eq_eq, List.forall₂_map_right_iff]
    refine (hall.imp ?_).flip
    rintro row found ⟨⟨hrow, -⟩, hfound⟩
    have hscored : isScored row = true := List.of_mem_filter hrow
    exact scoredRow_read (hticks row (List.mem_of_mem_filter hrow) hscored) hfound
  rw [hread, Exact.scoredRows, sortBy]
  refine (List.map_insertionSort _ _ toScored _ fun a _ b _ => ?_).symm
  simp only [toScored, PyFloat.le, decide_eq_true_eq, Int.cast_le]

theorem asFloat_eq {q q' : ℚ} (h : asFloat q = .ok q') : q' = q := by
  rw [asFloat] at h
  split at h
  · exact (Except.ok.inj h).symm
  · cases h

theorem average_exact {total : ℤ} {count : ℕ} {value : Option ℚ} (h : average total count = .ok value) :
    value = Exact.average total count := by
  rw [average] at h
  rw [Exact.average]
  split at h
  · next hzero => rw [if_pos hzero, Except.ok.inj h]
  · next hpos =>
    cases hvalue : asFloat (total / count) with
    | error e => rw [hvalue] at h; cases h
    | ok q =>
      rw [hvalue] at h
      rw [if_neg hpos, ← Except.ok.inj h, asFloat_eq hvalue]

theorem drawdownFrom_exact {cumulative peak worst : ℤ} {values : List ℤ} {value : ℚ}
    (h : drawdownFrom cumulative peak worst values = .ok value) :
    value = (Exact.drawdownFrom cumulative peak worst values : ℤ) := by
  induction values generalizing cumulative peak worst with
  | nil => exact (Except.ok.inj h).symm
  | cons clv values ih =>
    obtain ⟨drop, hdrop, h⟩ := bind_eq_ok.mp h
    rw [asFloat_eq hdrop, ← Int.cast_min] at h
    exact ih h

theorem brier_exact (rows : List Exact.ScoreRow) : brier (rows.map toScored) = Exact.brier rows := by
  simp only [brier, Exact.brier, List.filterMap_map]
  rfl

/-- **An agent's metrics** are those of exact arithmetic. -/
theorem agentMetrics_exact (hticks : IntTicks rows) {metrics : Metrics}
    (h : agentMetrics agentId proofMode rows = .ok metrics) :
    metrics = Exact.agentMetrics agentId proofMode (rows.map readRow) := by
  obtain ⟨scored, hscored, h⟩ := bind_eq_ok.mp h
  obtain ⟨avgClv, havg, h⟩ := bind_eq_ok.mp h
  obtain ⟨avgWindow, hwindow, h⟩ := bind_eq_ok.mp h
  obtain ⟨worst, hworst, h⟩ := bind_eq_ok.mp h
  obtain rfl := Except.ok.inj h
  obtain rfl := scoredRows_exact hticks hscored
  have hclv : ((Exact.scoredRows (rows.map readRow)).map toScored).map (·.clvBps) =
      (Exact.scoredRows (rows.map readRow)).map Exact.ScoreRow.clv := by
    rw [List.map_map]
    rfl
  have hworst' : worst = (Exact.drawdownFrom 0 0 0
      ((Exact.scoredRows (rows.map readRow)).map Exact.ScoreRow.clv) : ℤ) := by
    rw [hclv, maxDrawdown, ← Int.cast_zero (R := ℚ)] at hworst
    exact drawdownFrom_exact hworst
  have hvalid : (rows.filter fun row => (field row "valid").isTrue).length =
      ((rows.map readRow).filter Exact.ScoreRow.valid).length := by
    rw [List.filter_map, List.length_map]
    rfl
  rw [average_exact havg, average_exact hwindow, hworst', hvalid]
  simp only [Exact.agentMetrics, Exact.maxDrawdown, hclv, brier_exact, List.length_map,
    List.filterMap_map, Function.comp_def, readRow]

end Agent

/-- **The table of a run** that returns is the one of exact arithmetic. -/
theorem scoreRun_exact {run : RunResult} {table : List Metrics} (hticks : IntTicks run.scoreRows)
    (h : scoreRun run = .ok table) :
    table = Exact.scoreRun run.agentIds (proofModeOf run) (run.scoreRows.map readRow) := by
  obtain ⟨pairs, hpairs, h⟩ := bind_eq_ok.mp h
  obtain ⟨metrics, hmetrics, h⟩ := bind_eq_ok.mp h
  obtain rfl := Except.ok.inj h
  have hread : (run.scoreRows.map fun row => ((readRow row).agentId, row)) = pairs := by
    rw [← List.forall₂_eq_eq_eq, List.forall₂_map_left_iff]
    refine (mapM_eq_ok.mp hpairs).imp ?_
    intro row pair hpair
    obtain ⟨agentId, hid, hpair⟩ := bind_eq_ok.mp hpair
    simp only [← Except.ok.inj hpair, readRow, hid, Except.toOption, Option.getD_some]
  have hids : pairs.map Prod.fst = (run.scoreRows.map readRow).map Exact.ScoreRow.agentId := by
    rw [← hread, List.map_map, List.map_map]
    rfl
  have hmetrics' : ((Exact.agents run.agentIds (run.scoreRows.map readRow)).map fun agentId =>
      Exact.agentMetrics agentId (proofModeOf run agentId)
        (Exact.rowsOf (run.scoreRows.map readRow) agentId)) = metrics := by
    have hall := mapM_eq_ok.mp hmetrics
    rw [rowsByAgent, List.forall₂_map_left_iff, hids] at hall
    rw [← List.forall₂_eq_eq_eq, List.forall₂_map_left_iff, Exact.agents]
    refine hall.imp ?_
    intro agentId metrics hagent
    have hrows : ((pairs.filter fun row => row.1 = agentId).map Prod.snd) =
        run.scoreRows.filter fun row => (readRow row).agentId = agentId := by
      rw [← hread, List.filter_map, List.map_map]
      exact List.map_id _
    have hticks' : IntTicks (run.scoreRows.filter fun row => (readRow row).agentId = agentId) :=
      fun row hrow => hticks row (List.mem_of_mem_filter hrow)
    rw [hrows] at hagent
    simp only [agentMetrics_exact hticks' hagent, Exact.rowsOf, List.filter_map, Function.comp_def]
  rw [← hmetrics', Exact.scoreRun]

end Veridex.Scoring
