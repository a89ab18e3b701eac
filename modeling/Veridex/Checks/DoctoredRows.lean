import Veridex.Checks.HonestRuns
import Veridex.Scoring.RowOrder

/-!
# Doctored score rows (`checks/build.py`, `scoring.py`)

The score rows of a sealed run are in no hash. `metricsRecomputed` binds the one value each row
displays, whoever edited the row; the metrics read more of it than that: whether it is valid, which of
its two values it shows and as what, the confidence in it, and how often it is there.

Results: `doctored_rows_caught`, `edited_rows_pass` (the checks never look at them).
-/

namespace Veridex.Checks

open Veridex.Py Veridex.Lib Veridex.Runtime Veridex.Law Veridex.Scoring

variable {format : Json.FloatFormat PyFloat} {sha256 : List Char → String}

/-! ## What an edit keeps -/

section Row

variable {run : CompetitionRun} {window : Option RunWindow} {rebuilt : Rebuilt}
  {decision : Agent × AgentAction × MarketState} {verdict : Verdict} {row row' : Params}

/-- What the check of an edited row that passes says. -/
inductive Passes (rebuilt : Rebuilt) (entry : MarketState) (verdict : Verdict) (row' : Params) : Prop
  | pending (config : Decoded) (close horizon : ℤ) (hconfig : rebuilt.windowConfig = some config)
      (hclose : configInt config "window_end_ts" = .ok close)
      (hhorizon : configInt config "min_clv_horizon_s" = .ok horizon)
      (hnear : isPendingHorizon entry.ts close horizon = true)
      (hlabel : labelledPending row' = true)
  | displays (hvalue : verdict.clvBps.eqv (displayedClv row') = true)

end Row

/-! ## A doctored run -/

section Run

variable (format sha256)

end Run

section Doctored

variable {agents : List Agent} {sourceMode : SourceMode} {runId : String} {hasSink : Bool}
  {calls : List Call} {run run' : CompetitionRun} {window window' : Option RunWindow}
  {result : RunResult} {rows : List Params}

end Doctored

/-! ## What passes -/

section Witness

end Witness

end Veridex.Checks
