import Veridex.Scoring.Exact

/-!
# The leaderboard (`leaderboard.py`, `clv_confidence.py`)

The records are `score_run` rows of any runs, each tagged with what its run was. One row for each agent
pools them; the order of the rows is that of `score_run`. Numbers are exact.
-/

namespace Veridex.Scoring

open Veridex.Lib

/-- A row of `score_run`, with the tags of its run. -/
structure Record where
  metrics : Metrics
  anchorStatus : Option String := none
  sourceMode : Option String := none
  deriving DecidableEq

/-- `_eligibility_badge`. -/
def eligibilityBadge (anchorStatuses : List (Option String)) : String :=
  let confirmed := anchorStatuses.countP fun status => status = some "anchored"
  if confirmed = anchorStatuses.length ∧ 0 < confirmed then "fully-proven"
  else if 0 < confirmed then "partially-proven"
  else "unproven"

/-- `_summarize_anchor_status`. -/
def summarizeAnchorStatus (anchorStatuses : List (Option String)) : String :=
  let confirmed := anchorStatuses.countP fun status => status = some "anchored"
  if confirmed = anchorStatuses.length ∧ 0 < confirmed then "all-anchored"
  else if 0 < confirmed then "some-pending"
  else "none-anchored"

/-- `_summarize_source_mode`. -/
def summarizeSourceMode (modes : List (Option String)) : String :=
  let present := modes.reduceOption
  if present = [] then "unknown"
  else if present.all fun mode => mode = "replay" then "all-replay"
  else if present.all fun mode => mode = "live" then "all-live"
  else "mixed"

/-- `_summarize_proof_mode`. -/
def summarizeProofMode (modes : List String) : String :=
  match modes.dedup with
  | [mode] => mode
  | _ => "mixed"

/-- `clv_confidence`. -/
def clvConfidence (sampleSize : ℕ) : String :=
  if sampleSize ≤ 9 then "low" else if sampleSize ≤ 29 then "medium" else "high"

/-- A row of the leaderboard. -/
structure BoardRow where
  agentId : String
  runs : ℕ
  avgClvBps : Option ℚ
  totalClvBps : ℤ
  simPnl : ℤ
  brier : Option ℚ
  maxDrawdown : ℚ
  actionCount : ℕ
  validPct : ℚ
  proofMode : String
  eligibilityBadge : String
  anchorStatus : String
  sourceMode : String
  validCount : ℕ
  avgWindowClvBps : Option ℚ
  totalWindowClvBps : ℤ
  windowActionCount : ℕ
  clvConfidence : String
  lowSample : Bool
  sampleSize : ℕ
  rank : ℕ := 0
  deriving DecidableEq

/-- `_aggregate`. -/
def aggregate (agentId : String) (rows : List Record) : BoardRow :=
  let totalClvBps := (rows.map fun r => r.metrics.totalClvBps).sum
  let actionCount := (rows.map fun r => r.metrics.actionCount).sum
  let totalWindowClvBps := (rows.map fun r => r.metrics.totalWindowClvBps).sum
  let windowActionCount := (rows.map fun r => r.metrics.windowActionCount).sum
  let brierVals := rows.filterMap fun r => r.metrics.brier
  let anchorStatuses := rows.map Record.anchorStatus
  { agentId := agentId
    runs := rows.length
    avgClvBps := Exact.average totalClvBps actionCount
    totalClvBps := totalClvBps
    simPnl := (rows.map fun r => r.metrics.simPnl).sum
    brier := if brierVals = [] then none else some (brierVals.sum / brierVals.length)
    maxDrawdown := (rows.map fun r => r.metrics.maxDrawdown).min?.getD 0
    actionCount := actionCount
    validPct := (rows.map fun r => r.metrics.validPct).sum / rows.length
    proofMode := summarizeProofMode (rows.map fun r => r.metrics.proofMode)
    eligibilityBadge := Scoring.eligibilityBadge anchorStatuses
    anchorStatus := summarizeAnchorStatus anchorStatuses
    sourceMode := summarizeSourceMode (rows.map Record.sourceMode)
    validCount := (rows.map fun r => r.metrics.validCount).sum
    avgWindowClvBps := Exact.average totalWindowClvBps windowActionCount
    totalWindowClvBps := totalWindowClvBps
    windowActionCount := windowActionCount
    clvConfidence := Scoring.clvConfidence actionCount
    lowSample := actionCount ≤ 9
    sampleSize := actionCount }

/-- `_rank_key` of a leaderboard row. -/
def boardKey (row : BoardRow) :
    (ℕ ×ₗ ℚ) ×ₗ ℤ ×ₗ (ℕ ×ₗ ℚ) ×ₗ ℚ ×ₗ ℤ ×ₗ String :=
  toLex (noneLast (row.avgClvBps.map (-·)), toLex (-row.totalClvBps,
    toLex (noneLast row.brier, toLex (-row.maxDrawdown,
      toLex (-(row.actionCount : ℤ), row.agentId)))))

/-- The agents of records, each once. -/
def recordAgents (records : List Record) : List String :=
  (records.map fun r => r.metrics.agentId).eraseDups

/-- The records of one agent. -/
def recordsOf (records : List Record) (agentId : String) : List Record :=
  records.filter fun r => r.metrics.agentId = agentId

/-- `leaderboard`. -/
def leaderboard (records : List Record) : List BoardRow :=
  (sortBy boardKey ((recordAgents records).map fun agentId =>
    aggregate agentId (recordsOf records agentId))).mapIdx fun i row => { row with rank := i + 1 }

end Veridex.Scoring
