import Veridex.MmStrategy.Quote

/-!
# The decision function (`mm_strategy/core.py`)

Rows F, W and H, the cancel funnel, the identity stamp and `decide`.

`Platform` is what the core takes from outside the sources: `0.5 ** x` and the sha256 digests of the
canonical serializations.
-/

namespace Veridex.MmStrategy

open Veridex.Py Veridex.Lib

/-- What the core computes with and the sources do not define. -/
structure Platform where
  halfPow : ℚ → ℚ
  observationHash : StrategyObservation → String
  configHash : StrategyConfig → String
  stateHash : StrategyState → String
  /-- `decision_id`, of the strategy's id and revision, the config's hash, the session and the
  hashes of the observation and the prior state. -/
  decisionId : String → String → String → String → String → String → String
  clientOrderId : String → LegRole → String

/-- `STRATEGY_REVISION`. -/
def strategyRevision : String := "r4b-v0"

variable (platform : Platform) (observation : StrategyObservation) (state base : StrategyState)
  (config : StrategyConfig)

/-! ## The admitting rows -/

/-- The quote-only blockers, in the order `_apply_healthy` reads them. -/
def quoteBlocker : Option ReasonCode :=
  (tokenMappingReason observation).or
    ((statusStreamReason observation base config).or (suspendedBlockReason observation))

/-- `_apply_healthy`. -/
def applyHealthy (row : Row) : Except PyExc (StrategyDecision × StrategyState) :=
  let nextState := admitHealthy platform.halfPow observation base config
  if row = .W ∨ (row = .F ∧ referencesWarm base config = false) then
    .ok (decideKind .noQuote [.eventRefWarmup], nextState)
  else
    match quoteBlocker observation base config with
    | some blocker => .ok (decideKind .noQuote [blocker], nextState)
    | none => do
      let disposition ← quoteDisposition platform.halfPow observation base config
      if targetIsUnchanged observation config disposition then
        return (decideKind .hold [.holdUnchanged], nextState)
      else return (disposition, nextState)

/-! ## The cancel funnel and the identity stamp -/

/-- `_cancel_exposure_plan`. -/
def cancelExposurePlan : List NeutralIntent :=
  [{ kind := .cancelAllOrders, legRole := none }, { kind := .abstain, legRole := none }]

/-- `_funnel_cancel_on_exposure`. -/
def funnelCancelOnExposure (decision : StrategyDecision) : StrategyDecision :=
  if decision.kind ≠ .noQuote ∨ observation.inventory.resting = [] then decision
  else
    { decision with
      reasonCodes := decision.reasonCodes ++ [.cancelExposureFirst]
      intentPlan := cancelExposurePlan
      plan_singlePhase := by
        simp [SinglePhase, cancelExposurePlan, NeutralIntentKind.isPlacementPhase] }

/-- A leg with its order id, where it has a role. -/
def stampLeg (decisionIdentity : String) (leg : NeutralIntent) : NeutralIntent :=
  match leg.legRole with
  | none => leg
  | some role => { leg with clientOrderId := some (platform.clientOrderId decisionIdentity role) }

theorem stampLeg_kind (decisionIdentity : String) (leg : NeutralIntent) :
    (stampLeg platform decisionIdentity leg).kind = leg.kind := by
  unfold stampLeg
  split <;> rfl

theorem stampLeg_legRole (decisionIdentity : String) (leg : NeutralIntent) :
    (stampLeg platform decisionIdentity leg).legRole = leg.legRole := by
  unfold stampLeg
  split
  · rfl
  · rfl

/-- `_stamp_identity`. -/
def stampIdentity (decision : StrategyDecision) (priorState nextState : StrategyState)
    (sessionId : String) : StrategyDecision :=
  let observationHash := platform.observationHash observation
  let configHash := platform.configHash config
  let priorStateHash := platform.stateHash priorState
  let decisionIdentity := platform.decisionId config.strategyId strategyRevision configHash sessionId
    observationHash priorStateHash
  { decision with
    decisionId := decisionIdentity
    intentPlan := decision.intentPlan.map (stampLeg platform decisionIdentity)
    observationHash := observationHash
    configHash := configHash
    priorStateHash := priorStateHash
    nextStateHash := platform.stateHash nextState
    plan_singlePhase := decision.plan_singlePhase.map (stampLeg_kind platform decisionIdentity) }

/-! ## `decide` -/

/-- The reducer over a frame that passed every watermark: the last step of `_decide_raw`. -/
def reduceFrame (basisReset : Bool) : Except PyExc (StrategyDecision × StrategyState) := do
  let base := accept observation state config false basisReset
  match ← classifyRow observation state config with
  | .R => return applyReset observation base config (resetReason observation state)
  | .E => applyEvent observation base config
  | .D => return applyDataDegraded observation base config
  | .C => return applyCooldown base
  | row => applyHealthy platform observation base config row

/-- `_decide_raw`. -/
def decideRaw : Except PyExc (StrategyDecision × StrategyState) :=
  match state.lastBookSourceEpoch with
  | none => .ok (hold [], accept observation state config true false)
  | some lastEpoch =>
    if clockRegressed observation state then .ok (hold [.clockRegression], state)
    else
      let guardDelta := guardEpochDelta observation state config
      if observation.bookSourceEpoch < lastEpoch ∨ guardDelta < 0 then
        .ok (hold [.epochRegression], state)
      else if lastEpoch < observation.bookSourceEpoch then
        let base := accept observation state config true false
        .ok (applyReset observation base config .eventRefWarmup)
      else if sequenceStale observation state then .ok (hold [.staleObservation], state)
      else reduceFrame platform observation state config (0 < guardDelta)

/-- `decide`. -/
def decideFrame (sessionId : String) : Except PyExc (StrategyDecision × StrategyState) := do
  let (decision, nextState) ← decideRaw platform observation state config
  let decision := funnelCancelOnExposure observation decision
  return (stampIdentity platform observation config decision state nextState sessionId, nextState)

end Veridex.MmStrategy
