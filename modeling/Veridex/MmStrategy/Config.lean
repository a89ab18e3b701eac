import Veridex.Py.Basic

/-!
# The strategy configuration (`mm_strategy/config.py`)

`StrategyConfig` with the checks of its validators as fields, so that a value is an accepted
configuration. A knob that the validators bound on both sides is finite; one they bound below only
may be an infinity, and stays a `PyFloat`.
-/

namespace Veridex.MmStrategy

open Veridex.Py

/-- `basis_estimator`. -/
inductive BasisEstimator where
  | rollingMedian
  | halflifeEwma
  deriving DecidableEq, Repr

/-- `event_smoother`. -/
inductive EventSmoother where
  | emaAlpha
  | halflifeEwma
  deriving DecidableEq, Repr

/-- `restart_policy`. -/
inductive RestartPolicy where
  | failClosed
  | failOpen
  deriving DecidableEq, Repr

/-- `tif`: a resting maker quote is never a taker. -/
inductive MakerTif where
  | gtc
  | gtd
  deriving DecidableEq, Repr

/-- `StrategyConfig`. `anchor_mode` has one value and is left out. -/
structure StrategyConfig where
  strategyId : String := "venue-anchored-txline-guarded-maker"
  -- basis / residual estimator
  residualBand : PyFloat := .fin (2 / 100)
  extremeMultiple : PyFloat := .fin 3
  basisEstimator : BasisEstimator := .rollingMedian
  basisWindow : ℕ := 600
  ewmaHalflifeMs : ℕ := 300000
  basisMinSamples : ℕ := 30
  -- freshness / skew gates
  fvFreshnessMs : ℕ := 10000
  fvSourceLagS : ℕ := 10
  bookFreshnessMs : ℕ := 5000
  maxLegSkewMs : ℕ := 2000
  -- quoting geometry
  halfSpread : ℚ := 2 / 100
  boundaryZone : ℚ × ℚ := (4 / 100, 96 / 100)
  twoSidedBand : ℚ × ℚ := (30 / 100, 70 / 100)
  -- book-health floors
  minTopDepth : PyFloat := .fin 50
  minLevelCount : ℕ := 3
  depthCollapseRatio : ℚ := 25 / 100
  refMinSamples : ℕ := 20
  -- event-protection knobs
  bookStateDwellBeforeQuoteMs : ℕ := 5000
  midJumpThreshold : PyFloat := .fin (2 / 100)
  spreadBlowoutMultiple : PyFloat := .fin 3
  -- inventory / rounding
  inventorySoftLimit : PyFloat := .fin (5 / 10)
  priceEpsilon : PyFloat := .fin (5 / 1000)
  -- smoother and rolling references
  eventSmoother : EventSmoother := .emaAlpha
  eventSmootherParam : ℚ := 1 / 10
  marketStatusMaxAgeMs : ℕ := 30000
  rollingSpreadWindow : ℕ := 120
  rollingDepthWindow : ℕ := 120
  -- lifecycle / execution policy
  guardEnabled : Bool
  restartPolicy : RestartPolicy := .failClosed
  tif : MakerTif := .gtc
  feeBps : PyFloat := .fin 100
  -- what the fields' bounds and `_validate_zones` check
  residualBand_pos : PyFloat.lt (.fin 0) residualBand = true := by decide +kernel
  extremeMultiple_gt : PyFloat.lt (.fin 1) extremeMultiple = true := by decide +kernel
  basisWindow_pos : 1 ≤ basisWindow := by decide +kernel
  ewmaHalflifeMs_pos : 1 ≤ ewmaHalflifeMs := by decide +kernel
  basisMinSamples_pos : 1 ≤ basisMinSamples := by decide +kernel
  fvFreshnessMs_pos : 1 ≤ fvFreshnessMs := by decide +kernel
  bookFreshnessMs_pos : 1 ≤ bookFreshnessMs := by decide +kernel
  halfSpread_mem : 0 < halfSpread ∧ halfSpread < 1 := by decide +kernel
  boundaryZone_ordered :
    0 < boundaryZone.1 ∧ boundaryZone.1 < boundaryZone.2 ∧ boundaryZone.2 < 1 := by decide +kernel
  twoSidedBand_ordered : twoSidedBand.1 < twoSidedBand.2 := by decide +kernel
  twoSidedBand_within :
    boundaryZone.1 ≤ twoSidedBand.1 ∧ twoSidedBand.2 ≤ boundaryZone.2 := by decide +kernel
  minTopDepth_pos : PyFloat.lt (.fin 0) minTopDepth = true := by decide +kernel
  minLevelCount_pos : 1 ≤ minLevelCount := by decide +kernel
  depthCollapseRatio_mem : 0 < depthCollapseRatio ∧ depthCollapseRatio ≤ 1 := by decide +kernel
  refMinSamples_pos : 1 ≤ refMinSamples := by decide +kernel
  midJumpThreshold_pos : PyFloat.lt (.fin 0) midJumpThreshold = true := by decide +kernel
  spreadBlowoutMultiple_gt : PyFloat.lt (.fin 1) spreadBlowoutMultiple = true := by decide +kernel
  inventorySoftLimit_pos : PyFloat.lt (.fin 0) inventorySoftLimit = true := by decide +kernel
  priceEpsilon_pos : PyFloat.lt (.fin 0) priceEpsilon = true := by decide +kernel
  eventSmootherParam_mem : 0 < eventSmootherParam ∧ eventSmootherParam ≤ 1 := by decide +kernel
  marketStatusMaxAgeMs_pos : 1 ≤ marketStatusMaxAgeMs := by decide +kernel
  rollingSpreadWindow_pos : 1 ≤ rollingSpreadWindow := by decide +kernel
  rollingDepthWindow_pos : 1 ≤ rollingDepthWindow := by decide +kernel
  feeBps_nonneg : PyFloat.le (.fin 0) feeBps = true := by decide +kernel

end Veridex.MmStrategy
