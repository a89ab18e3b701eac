import Veridex.Law.Recompute

/-!
# Score rows (`runtime/orchestrator.py`, `runtime/window.py`, `scoring.py`)

A `RunResult` is what a run is sealed to. A score row is a dictionary; `isScored` and
`isWindowScored` tell the rows the metrics count.
-/

namespace Veridex.Scoring

open Veridex.Py Veridex.Lib Veridex.Runtime Veridex.Law

/-- `row.get(name)`. -/
def field (row : Params) (name : String) : Decoded := (row.lookup name).getD .null

/-- `is_scored`. -/
def isScored (row : Params) : Bool :=
  (field row "valid").isTrue && (field row "clv_bps").properInt.isSome

/-- `is_window_scored`. -/
def isWindowScored (row : Params) : Bool := (field row "window_clv_bps").properInt.isSome

/-- `RunResult`. -/
structure RunResult where
  runId : String
  sourceMode : SourceMode
  agentIds : List String
  runEvents : List RunEvent
  scoreRows : List Params
  evidenceHash : String
  proofModeMap : Params

/-- The closing snapshot of the market an action names, as both callers of `recompute` look it up. -/
def closingFor (closing : String → Option MarketState) (action : AgentAction) :
    Except PyExc (Option MarketState) :=
  if (action.param "market_key").truthy then return (← (action.param "market_key").key).bind closing
  else return none

/-! ## Windows -/

/-- How a window ends. -/
inductive EndRule where
  | preMatch
  | fixedDuration
  | manualStop
  deriving DecidableEq, Repr

def EndRule.text : EndRule → String
  | preMatch => "pre_match"
  | fixedDuration => "fixed_duration"
  | manualStop => "manual_stop"

/-- `RunWindow`, as far as a seal reads it. -/
structure RunWindow where
  windowId : String
  endRule : EndRule
  minClvHorizonS : ℤ := 60
  startedTs : Option ℤ := none
  deriving DecidableEq, Repr

/-- `clv_field_name`. -/
def clvFieldName : EndRule → String
  | .preMatch => "clv_bps"
  | _ => "window_clv_bps"

/-- `is_pending_horizon`. -/
def isPendingHorizon (entryTs windowEndTs minClvHorizonS : ℤ) : Bool :=
  windowEndTs - entryTs < minClvHorizonS

end Veridex.Scoring

/-!
## The metric stack (`scoring.py`)

`scoreRun` derives each agent's metrics from the score rows and ranks them. Floats are exact here;
what would overflow one raises, as it does there.

The rows are untyped. A row's agent that is no text, and a scored row's tick that is no number, are
refused: no sealed decision has such a key.
-/

namespace Veridex.Scoring

open Veridex.Py Veridex.Lib Veridex.Runtime

/-- One agent's metrics. -/
structure Metrics where
  agentId : String
  avgClvBps : Option ℚ
  totalClvBps : ℤ
  simPnl : ℤ
  brier : Option ℚ
  maxDrawdown : ℚ
  actionCount : ℕ
  validPct : ℚ
  validCount : ℕ
  avgWindowClvBps : Option ℚ
  totalWindowClvBps : ℤ
  windowActionCount : ℕ
  proofMode : String
  rank : ℕ := 0
  deriving DecidableEq, Repr

/-- A value a float can hold. -/
def asFloat (q : ℚ) : Except PyExc ℚ :=
  if |q| < PyFloat.overflowBound then .ok q
  else .error ⟨.exception, "int too large to convert to float"⟩

/-- `total / count`, or no average. -/
def average (total : ℤ) (count : ℕ) : Except PyExc (Option ℚ) :=
  if count = 0 then .ok none else some <$> asFloat (total / count)

/-- `_confidence`. -/
def confidence (row : Params) : Except PyExc (Option ℚ) := do
  let prescore : Decoded := (row.lookup "raw_prescore").getD (.obj [])
  let action ← prescore.get "raw_action" (.obj [])
  let params ← action.get "params" (.obj [])
  let value ← params.get "confidence" .null
  let inUnit (q : ℚ) : Option ℚ := if 0 ≤ q ∧ q ≤ 1 then some q else none
  match value with
  | .int n => return inUnit (← asFloat n)
  | .float (.fin q) => return inUnit q
  | _ => return none

/-- A scored row, as the metrics read it: its tick, its value and its confidence. -/
structure ScoredRow where
  tick : PyFloat
  clvBps : ℤ
  confidence : Option ℚ
  deriving DecidableEq, Repr

/-- The value of a row under a name, where it is a proper int. -/
def intValue (row : Params) (name : String) : Option ℤ := (field row name).properInt

/-- What the metrics read of a scored row. -/
def scoredRow (row : Params) (clvBps : ℤ) : Except PyExc ScoredRow := do
  let some tick := (field row "tick_seq").number | .error ⟨.typeError, "'<' not supported"⟩
  return ⟨tick, clvBps, ← confidence row⟩

/-- The scored rows, in the order of their ticks. -/
def scoredRows (rows : List Params) : Except PyExc (List ScoredRow) := do
  let scored ← (rows.filter isScored).mapM fun row =>
    scoredRow row ((intValue row "clv_bps").getD 0)
  return scored.insertionSort fun a b => a.tick.le b.tick = true

/-- `_max_drawdown`, from a cumulative value and its peak on. -/
def drawdownFrom (cumulative peak : ℤ) (worst : ℚ) : List ℤ → Except PyExc ℚ
  | [] => .ok worst
  | clv :: rest => do
    let cumulative := cumulative + clv
    let peak := max peak cumulative
    let drop ← asFloat (cumulative - peak : ℤ)
    drawdownFrom cumulative peak (min worst drop) rest

/-- `_max_drawdown`. -/
def maxDrawdown (scoredClv : List ℤ) : Except PyExc ℚ := drawdownFrom 0 0 0 scoredClv

/-- `_brier`. -/
def brier (scored : List ScoredRow) : Option ℚ :=
  let errors := scored.filterMap fun row => row.confidence.map fun confidence =>
    (confidence - if 0 < row.clvBps then 1 else 0) ^ 2
  if errors = [] then none else some (errors.sum / errors.length)

/-- `_agent_metrics`. -/
def agentMetrics (agentId proofMode : String) (agentRows : List Params) : Except PyExc Metrics := do
  let scored ← scoredRows agentRows
  let scoredClv := scored.map (·.clvBps)
  let totalClvBps := scoredClv.sum
  let avgClvBps ← average totalClvBps scored.length
  let windowScored := agentRows.filterMap fun row => intValue row "window_clv_bps"
  let avgWindowClvBps ← average windowScored.sum windowScored.length
  let validCount := (agentRows.filter fun row => (field row "valid").isTrue).length
  return {
    agentId := agentId
    avgClvBps := avgClvBps
    totalClvBps := totalClvBps
    simPnl := totalClvBps
    brier := brier scored
    maxDrawdown := ← maxDrawdown scoredClv
    actionCount := scored.length
    validPct := if agentRows.length = 0 then 0 else validCount / agentRows.length * 100
    validCount := validCount
    avgWindowClvBps := avgWindowClvBps
    totalWindowClvBps := windowScored.sum
    windowActionCount := windowScored.length
    proofMode := proofMode }

/-- A value that may be absent, the absent one last. -/
def noneLast : Option ℚ → ℕ ×ₗ ℚ
  | none => toLex (1, 0)
  | some q => toLex (0, q)

/-- `_rank_key`. -/
def rankKey (metrics : Metrics) :
    (ℕ ×ₗ ℚ) ×ₗ ℤ ×ₗ (ℕ ×ₗ ℚ) ×ₗ ℚ ×ₗ ℤ ×ₗ String :=
  toLex (noneLast (metrics.avgClvBps.map (-·)), toLex (-metrics.totalClvBps,
    toLex (noneLast metrics.brier, toLex (-metrics.maxDrawdown,
      toLex (-(metrics.actionCount : ℤ), metrics.agentId)))))

/-- `row["agent_id"]`. -/
def agentIdOf (row : Params) : Except PyExc String :=
  match row.lookup "agent_id" with
  | some (.str agentId) => .ok agentId
  | some _ => .error ⟨.typeError, "agent_id is no text"⟩
  | none => .error ⟨.exception, "agent_id"⟩

/-- `rows_by_agent`: the run's agents, then those the rows add, each with its rows. -/
def rowsByAgent (agentIds : List String) (rows : List (String × Params)) :
    List (String × List Params) :=
  (agentIds ++ rows.map Prod.fst).eraseDups.map fun agentId =>
    (agentId, (rows.filter fun row => row.1 = agentId).map Prod.snd)

/-- `run.proof_mode_map.get(agent_id, "")`. -/
def proofModeOf (run : RunResult) (agentId : String) : String :=
  match run.proofModeMap.lookup agentId with
  | some (.str mode) => mode
  | _ => ""

/-- The metrics ranked from one on. -/
def ranked (metrics : List Metrics) : List Metrics :=
  (metrics.insertionSort fun a b => rankKey a ≤ rankKey b).mapIdx fun i m => { m with rank := i + 1 }

/-- `score_run`. -/
def scoreRun (run : RunResult) : Except PyExc (List Metrics) := do
  let rows ← run.scoreRows.mapM fun row => do return (← agentIdOf row, row)
  let metrics ← (rowsByAgent run.agentIds rows).mapM fun (agentId, agentRows) =>
    agentMetrics agentId (proofModeOf run agentId) agentRows
  return ranked metrics

end Veridex.Scoring
