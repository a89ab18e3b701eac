import Veridex.Py.Text
import Veridex.Runtime.Schemas

/-!
# The shared drift features (`strategies/sharp_stats.py`, `strategies/drift_features.py`)

`driftFeatures` projects a side's series of logits into the snapshot both drift contestants decide
from. The library's `log` and `exp` are taken as given, as is the digest.

Results: `driftFeatures_ok` (what a snapshot says of its series).
-/

namespace Veridex.Strategies

open Veridex.Py Veridex.Lib Veridex.Runtime

/-- What the features are computed with. -/
structure FloatLibrary where
  log : PyFloat → PyFloat
  exp : PyFloat → PyFloat
  format : Json.FloatFormat PyFloat
  sha256 : List Char → String

variable (lib : FloatLibrary)

/-- `_LOGIT_EPS`. -/
def logitEps : ℚ := 1 / 1000000

/-- `logit`. -/
def logit (p : PyFloat) : PyFloat :=
  let clamped := if p.lt (.fin logitEps) then .fin logitEps else p
  let q := if (PyFloat.fin (1 - logitEps)).lt clamped then .fin (1 - logitEps) else clamped
  lib.log (q.div ((PyFloat.fin 1).sub q))

/-- `ewma`. -/
def ewma (values : List PyFloat) (alpha : PyFloat) : Except PyExc PyFloat :=
  match values with
  | [] => .error ⟨.valueError, "ewma requires at least one value"⟩
  | value :: rest =>
    if (PyFloat.fin 0).lt alpha && alpha.le (.fin 1) then
      .ok (rest.foldl (fun smoothed value =>
        (alpha.mul value).add (((PyFloat.fin 1).sub alpha).mul smoothed)) value)
    else .error ⟨.valueError, "alpha must be in (0, 1], got " ++
      Decoded.numberText lib.format (.float alpha)⟩

/-- `DriftFeatureParams`. -/
structure DriftFeatureParams where
  ewmaSlopeAlpha : PyFloat
  qualityBandLo : PyFloat := .fin (1 / 20)
  qualityBandHi : PyFloat := .fin (19 / 20)

/-- `DriftFeatureSnapshot`. -/
structure DriftFeatureSnapshot where
  first : PyFloat
  current : PyFloat
  cumLogitDrift : PyFloat
  ewmaSlope : PyFloat
  trendStrength : PyFloat
  tickCount : ℕ
  horizonS : ℤ
  marketQuality : Bool
  evidenceHash : String
  deriving DecidableEq, Repr

/-- `_direction`. -/
def direction (delta : PyFloat) : PyFloat :=
  if (PyFloat.fin 0).lt delta then .fin 1
  else if delta.lt (.fin 0) then .fin (-1)
  else .fin 0

/-- The directions of the moves of a series. -/
def directions (series : List PyFloat) : List PyFloat :=
  List.zipWith (fun previous next => direction (next.sub previous)) series series.tail

/-- `drift_features`. -/
def driftFeatures (series : List PyFloat) (tsFirst ts : ℤ) (params : DriftFeatureParams) :
    Except PyExc DriftFeatureSnapshot := do
  match series.head?, series.getLast? with
  | some first, some current =>
    let cumLogitDrift := current.sub first
    let tickCount := series.length
    let horizonS := ts - tsFirst
    let ewmaSlope ← if tickCount ≥ 2 then ewma lib (directions series) params.ewmaSlopeAlpha
      else .ok (.fin 0)
    let currentProb := (PyFloat.fin 1).div ((PyFloat.fin 1).add (lib.exp current.neg))
    let marketQuality := params.qualityBandLo.le currentProb && currentProb.le params.qualityBandHi
    let payload : Decoded := .obj [
      ("logit_series", .arr (series.map .float)), ("ts_first", .int tsFirst), ("ts", .int ts),
      ("ewma_slope_alpha", .float params.ewmaSlopeAlpha),
      ("quality_band_lo", .float params.qualityBandLo),
      ("quality_band_hi", .float params.qualityBandHi),
      ("first", .float first), ("current", .float current),
      ("cum_logit_drift", .float cumLogitDrift), ("ewma_slope", .float ewmaSlope),
      ("trend_strength", .float ewmaSlope), ("tick_count", .int tickCount),
      ("horizon_s", .int horizonS), ("market_quality", .bool marketQuality)]
    let evidenceHash := lib.sha256 (serializePayload lib.format payload)
    return {
      first := first
      current := current
      cumLogitDrift := cumLogitDrift
      ewmaSlope := ewmaSlope
      trendStrength := ewmaSlope
      tickCount := tickCount
      horizonS := horizonS
      marketQuality := marketQuality
      evidenceHash := evidenceHash }
  | _, _ => .error ⟨.valueError, "drift_features requires at least one logit observation"⟩

/-- **A snapshot** counts the observations of its series and spans their time. -/
theorem driftFeatures_ok {lib : FloatLibrary} {series : List PyFloat} {tsFirst ts : ℤ}
    {params : DriftFeatureParams} {snapshot : DriftFeatureSnapshot}
    (h : driftFeatures lib series tsFirst ts params = .ok snapshot) :
    snapshot.tickCount = series.length ∧ snapshot.horizonS = ts - tsFirst := by
  unfold driftFeatures at h
  split at h
  · simp only at h
    split_ifs at h
    · obtain ⟨ewmaSlope, -, h⟩ := bind_eq_ok.mp h
      obtain rfl := Except.ok.inj h
      exact ⟨rfl, rfl⟩
    · obtain ⟨ewmaSlope, -, h⟩ := bind_eq_ok.mp h
      obtain rfl := Except.ok.inj h
      exact ⟨rfl, rfl⟩
  · exact nomatch h

end Veridex.Strategies
