import Veridex.Py.Statistics
import Veridex.MmStrategy.Config
import Veridex.MmStrategy.Contracts

/-!
# Basis and residual estimators (`mm_strategy/basis.py`)

The rolling references, the event smoother, the basis and the directional tick rounding. A reducer
of an empty sample raises, as in the sources; the tick rounding takes a positive tick, which is what
an observation carries, so its own check never fires.

`halfPow` is `0.5 ** x`, whose value is the platform's.
-/

namespace Veridex.MmStrategy

open Veridex.Py

variable (halfPow : ℚ → ℚ)

/-! ## The basis -/

/-- `rolling_median`. -/
def rollingMedian (samples : List ℚ) : ℚ := median samples

/-- `halflife_ewma`. -/
def halflifeEwma (prev value dtMs halflifeMs : ℚ) : ℚ :=
  let decay := halfPow (dtMs / halflifeMs)
  decay * prev + (1 - decay) * value

/-- The fold of `basis` over the samples after the oldest one. -/
def basisFold (halflifeMs : ℚ) : ℤ → ℚ → List (ℤ × ℚ) → ℚ
  | _, acc, [] => acc
  | prevTs, acc, (ts, gap) :: rest =>
    basisFold halflifeMs ts (halflifeEwma halfPow acc gap (ts - prevTs : ℤ) halflifeMs) rest

/-- `basis`. -/
def basis (rawGaps : List (ℤ × ℚ)) (config : StrategyConfig) : Except PyExc ℚ :=
  match rawGaps with
  | [] => .error ⟨.valueError, "basis requires at least one accepted sample"⟩
  | (prevTs, gap) :: rest =>
    match config.basisEstimator with
    | .rollingMedian =>
      .ok (rollingMedian ((lastN ((prevTs, gap) :: rest) config.basisWindow).map Prod.snd))
    | .halflifeEwma => .ok (basisFold halfPow config.ewmaHalflifeMs prevTs gap rest)

/-- `basis_from_state`. -/
def basisFromState (state : StrategyState) (config : StrategyConfig) : Except PyExc ℚ :=
  match config.basisEstimator with
  | .halflifeEwma =>
    match state.basisEwmaValue with
    | none => .error ⟨.valueError, "basis requires at least one accepted sample"⟩
    | some value => .ok value
  | .rollingMedian => basis halfPow state.basisSamples config

/-- `residual`. -/
def residual (rawGap basis : ℚ) : ℚ := rawGap - basis

/-! ## Directional tick rounding -/

/-- `floor_to_tick`. -/
def floorToTick (price tick : ℚ) : ℚ :=
  let ticks := ⌊pyRoundTo 9 (price / tick)⌋
  pyRoundTo 12 (ticks * tick)

/-- `ceil_to_tick`. -/
def ceilToTick (price tick : ℚ) : ℚ :=
  let ticks := ⌈pyRoundTo 9 (price / tick)⌉
  pyRoundTo 12 (ticks * tick)

/-! ## The event smoother and the rolling references -/

/-- `event_smoother_update`. -/
def eventSmootherUpdate (prev value : ℚ) (config : StrategyConfig) (dtMs : ℚ) : ℚ :=
  match config.eventSmoother with
  | .emaAlpha =>
    let alpha := config.eventSmootherParam
    (1 - alpha) * prev + alpha * value
  | .halflifeEwma => halflifeEwma halfPow prev value dtMs config.ewmaHalflifeMs

/-- `rolling_spread_reference`. -/
def rollingSpreadReference (spreadSamples : List ℚ) (config : StrategyConfig) : Except PyExc ℚ :=
  if spreadSamples = [] then
    .error ⟨.valueError, "rolling_spread_reference requires at least one accepted sample"⟩
  else .ok (rollingMedian (lastN spreadSamples config.rollingSpreadWindow))

/-- `rolling_depth_reference`. -/
def rollingDepthReference (depthSamples : List ℚ) (config : StrategyConfig) : Except PyExc ℚ :=
  if depthSamples = [] then
    .error ⟨.valueError, "rolling_depth_reference requires at least one accepted sample"⟩
  else .ok (rollingMedian (lastN depthSamples config.rollingDepthWindow))

/-- `reference_is_warm`. -/
def referenceIsWarm (sampleCount : ℕ) (config : StrategyConfig) : Bool :=
  config.refMinSamples ≤ sampleCount

/-! ## When they return -/

theorem rollingSpreadReference_ok {samples : List ℚ} (config : StrategyConfig)
    (h : samples ≠ []) : ∃ ref, rollingSpreadReference samples config = .ok ref := by
  simp [rollingSpreadReference, h]

theorem rollingDepthReference_ok {samples : List ℚ} (config : StrategyConfig)
    (h : samples ≠ []) : ∃ ref, rollingDepthReference samples config = .ok ref := by
  simp [rollingDepthReference, h]

/-- The data the configured estimator reduces is there. -/
def HasBasis (state : StrategyState) (config : StrategyConfig) : Prop :=
  match config.basisEstimator with
  | .halflifeEwma => state.basisEwmaValue ≠ none
  | .rollingMedian => state.basisSamples ≠ []

theorem basisFromState_ok {state : StrategyState} {config : StrategyConfig}
    (h : HasBasis state config) : ∃ estimate, basisFromState halfPow state config = .ok estimate := by
  unfold HasBasis at h
  unfold basisFromState
  cases hkind : config.basisEstimator with
  | halflifeEwma =>
    rw [hkind] at h
    obtain ⟨value, hvalue⟩ := Option.ne_none_iff_exists'.mp h
    exact ⟨value, by simp [hvalue]⟩
  | rollingMedian =>
    rw [hkind] at h
    cases hsamples : state.basisSamples with
    | nil => exact absurd hsamples h
    | cons sample rest =>
      refine ⟨rollingMedian ((lastN (sample :: rest) config.basisWindow).map Prod.snd), ?_⟩
      simp [basis, hkind]

end Veridex.MmStrategy
