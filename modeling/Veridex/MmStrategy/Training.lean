import Veridex.MmStrategy.Rows

/-!
# Training and the rows that never quote (`mm_strategy/core.py`)

What an admitting frame folds into the next state, and the transitions of rows R, E, D and C. The
two admissions write disjoint fields of the state and both read the watermark-advanced `base`, so
one is applied after the other.
-/

namespace Veridex.MmStrategy

open Veridex.Py Veridex.Lib

variable (halfPow : ℚ → ℚ) (observation : StrategyObservation) (base : StrategyState)
  (config : StrategyConfig)

/-! ## The venue accumulators -/

/-- The smoother after this frame's mid: the mid itself where it was unseeded. -/
def admitSmoother (mid : ℚ) : ℚ :=
  match base.smootherMid with
  | none => mid
  | some prev =>
    let priorTs := base.smootherMidTs.getD observation.asOfTs
    eventSmootherUpdate halfPow prev mid config (observation.asOfTs - priorTs : ℤ)

/-- `_admit_venue_updates`, applied to `base`. -/
def admitVenueUpdates : StrategyState :=
  let trained := mid observation
  { base with
    smootherMid := (trained.map (admitSmoother halfPow observation base config)).or base.smootherMid
    smootherMidTs := if trained.isSome then some observation.asOfTs else base.smootherMidTs
    spreadRefSamples :=
      match spread observation with
      | none => base.spreadRefSamples
      | some spread => lastN (base.spreadRefSamples ++ [spread]) config.rollingSpreadWindow
    depthRefSamples :=
      match topDepth observation with
      | none => base.depthRefSamples
      | some depth => lastN (base.depthRefSamples ++ [depth]) config.rollingDepthWindow }

/-! ## The guarded basis -/

/-- `_fv_is_stale`. -/
def fvIsStale (guardFv : GuardFairValue) : Bool :=
  let transportStale : Bool := config.fvFreshnessMs < observation.asOfTs - guardFv.fvRecvTs
  let contentStale : Bool :=
    (config.fvSourceLagS : ℚ) < (guardFv.fvRecvTs : ℚ) / 1000 - guardFv.fvSourceTs
  transportStale || contentStale

/-- `_guard_fv_block_reason`. -/
def guardFvBlockReason : Option ReasonCode :=
  match observation.guardFv with
  | none => some .txlineMissing
  | some guardFv =>
    if fvIsStale observation config guardFv then some .txlineStale
    else if observation.suspended then some .txlineSuspended
    else none

/-- The basis fields after one more accepted gap. -/
def admitGap (rawGap : ℚ) : StrategyState :=
  match config.basisEstimator with
  | .halflifeEwma =>
    let value :=
      match base.basisEwmaValue, base.basisEwmaTs with
      | some prev, some prevTs =>
        halflifeEwma halfPow prev rawGap (observation.asOfTs - prevTs : ℤ) config.ewmaHalflifeMs
      | _, _ => rawGap
    { base with
      basisEwmaValue := some value
      basisEwmaTs := some observation.asOfTs
      basisSampleCount := base.basisSampleCount + 1
      ewmaAccumulator_pair := by simp }
  | .rollingMedian =>
    { base with
      basisSamples := lastN (base.basisSamples ++ [(observation.asOfTs, rawGap)]) config.basisWindow
      basisSampleCount := base.basisSampleCount + 1 }

/-- `_admit_basis_updates`, applied to `base`. -/
def admitBasisUpdates : StrategyState :=
  match config.guardEnabled, observation.guardFv with
  | true, some guardFv =>
    if (guardFvBlockReason observation config).isSome then base
    else
      match mid observation with
      | none => base
      | some mid => admitGap halfPow observation base config (guardFv.fv - mid)
  | _, _ => base

/-- The next state of an admitting row: both admissions, and no cooldown. -/
def admitHealthy : StrategyState :=
  { admitBasisUpdates halfPow observation (admitVenueUpdates halfPow observation base config) config
    with eventCooldownUntilTs := none }

/-! ## Rows R, E, D and C -/

/-- `_decide`. -/
def decideKind (kind : DecisionKind) (reasonCodes : List ReasonCode) : StrategyDecision :=
  { kind, reasonCodes }

/-- `_hold`. -/
def hold (reasonCodes : List ReasonCode) : StrategyDecision := { kind := .hold, reasonCodes }

/-- `_cooldown_deadline`. -/
def cooldownDeadline : ℤ := observation.asOfTs + config.bookStateDwellBeforeQuoteMs

/-- The next state of row R: the smoother is seeded from an `ok` book's own mid. -/
def resetState : StrategyState :=
  let reseedMid := if observation.bookStatus = .ok then mid observation else none
  { clearBasis base with
    smootherMid := reseedMid
    smootherMidTs := if reseedMid.isSome then some observation.asOfTs else none
    spreadRefSamples := []
    depthRefSamples := []
    eventCooldownUntilTs := some (cooldownDeadline observation config) }

/-- `_apply_reset`. -/
def applyReset (reason : ReasonCode) : StrategyDecision × StrategyState :=
  (decideKind .noQuote [reason], resetState observation base config)

/-- The next state of row E: no admission, and the cooldown anchored. -/
def eventState : StrategyState :=
  { base with eventCooldownUntilTs := some (cooldownDeadline observation config) }

/-- The reason of a row-E frame. -/
def eventReason : Except PyExc ReasonCode :=
  match observation.bookStatus with
  | .gap => .ok .bookGap
  | .excluded => .ok .bookExcluded
  | .ok => do
    let reason ← venueEventReason observation base config
    return reason.getD .bookThin

/-- `_apply_event`. -/
def applyEvent : Except PyExc (StrategyDecision × StrategyState) := do
  let reason ← eventReason observation base config
  return (decideKind .noQuote [reason], eventState observation base config)

/-- `_apply_data_degraded`. -/
def applyDataDegraded : StrategyDecision × StrategyState :=
  let stale := if bookIsStale observation config then [.bookStale] else []
  let skewed := if legIsSkewed observation config then [.legSkew] else []
  (decideKind .noQuote (stale ++ skewed), base)

/-- `_apply_cooldown`. -/
def applyCooldown : StrategyDecision × StrategyState := (decideKind .noQuote [.eventCooldown], base)

end Veridex.MmStrategy
