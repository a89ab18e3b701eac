import Veridex.MmStrategy.Config
import Veridex.MmStrategy.Contracts

/-!
# The watermark layer of the core (`mm_strategy/core.py`)

The market status after the core's own freshness and regression checks, the watermarks an accepted
frame carries forward, and the resets of `_accept`. `admission` is the verdict of the checks
`_decide_raw` makes before it classifies a frame, in their order.
-/

namespace Veridex.MmStrategy

/-! ## The market status -/

/-- `_status_is_stale`. -/
def statusIsStale (observation : StrategyObservation) (config : StrategyConfig) : Bool :=
  match observation.marketStatusRecvTs with
  | none => false
  | some recvTs => config.marketStatusMaxAgeMs < observation.asOfTs - recvTs

/-- `_status_regressed`. -/
def statusRegressed (observation : StrategyObservation) (state : StrategyState) : Bool :=
  match observation.marketStatusEpoch, observation.marketStatusRecvTs with
  | some epoch, some recvTs =>
    state.lastMarketStatusEpoch.any (epoch < ·) || state.lastMarketStatusRecvTs.any (recvTs < ·)
  | _, _ => false

/-- `_effective_market_status`. -/
def effectiveMarketStatus (observation : StrategyObservation) (state : StrategyState)
    (config : StrategyConfig) : MarketStatus :=
  if observation.marketStatus = .unknown then .unknown
  else if statusIsStale observation config || statusRegressed observation state then .unknown
  else observation.marketStatus

/-- `_status_watermark`. -/
def statusWatermark (observation : StrategyObservation) (state : StrategyState)
    (config : StrategyConfig) : Option ℤ × Option ℤ :=
  if effectiveMarketStatus observation state config = .unknown then
    (state.lastMarketStatusEpoch, state.lastMarketStatusRecvTs)
  else (observation.marketStatusEpoch, observation.marketStatusRecvTs)

/-! ## The guard's generation -/

/-- `_guard_watermark`. -/
def nextGuardWatermark (observation : StrategyObservation) (state : StrategyState)
    (config : StrategyConfig) : Option GuardStateWatermark :=
  if config.guardEnabled then
    match observation.guardFv with
    | some guardFv => some ⟨guardFv.fvSourceEpoch⟩
    | none => state.guardWatermark
  else none

/-- `_guard_epoch_delta`. -/
def guardEpochDelta (observation : StrategyObservation) (state : StrategyState)
    (config : StrategyConfig) : ℤ :=
  if config.guardEnabled then
    match observation.guardFv, state.guardWatermark with
    | some guardFv, some watermark =>
      if guardFv.fvSourceEpoch < watermark.fvSourceEpoch then -1
      else if watermark.fvSourceEpoch < guardFv.fvSourceEpoch then 1
      else 0
    | _, _ => 0
  else 0

/-! ## Accepting a frame -/

/-- The watermark fields `_accept` writes on every accepted frame. -/
def advanceWatermark (observation : StrategyObservation) (state : StrategyState)
    (config : StrategyConfig) : StrategyState :=
  let status := statusWatermark observation state config
  { state with
    lastObservationSequence := some observation.observationSequence
    lastBookSourceEpoch := some observation.bookSourceEpoch
    lastAsOfTs := some observation.asOfTs
    lastMarketStatusEpoch := status.1
    lastMarketStatusRecvTs := status.2
    guardWatermark := nextGuardWatermark observation state config
    lastPhase := some observation.phase
    lastSuspended := some observation.suspended
    lastBookInGap := some (observation.bookStatus ∈ [BookStatus.gap, BookStatus.excluded]) }

/-- The basis fields, cleared. -/
def clearBasis (state : StrategyState) : StrategyState :=
  { state with
    basisSamples := []
    basisEwmaValue := none
    basisEwmaTs := none
    basisSampleCount := 0
    ewmaAccumulator_pair := unset_pair }

/-- The smoother and the rolling references, cleared. -/
def clearVenue (state : StrategyState) : StrategyState :=
  { state with
    smootherMid := none
    smootherMidTs := none
    spreadRefSamples := []
    depthRefSamples := [] }

/-- `_accept`. -/
def accept (observation : StrategyObservation) (state : StrategyState) (config : StrategyConfig)
    (fullReset basisReset : Bool) : StrategyState :=
  let update := advanceWatermark observation state config
  if fullReset then clearVenue (clearBasis update)
  else if basisReset then clearBasis update
  else update

/-! ## The verdict of the watermark layer -/

/-- What the checks before the classification say of a frame. `_decide_raw` makes them in the
order of the constructors; `fvReset` is the `fv_source_epoch` increment of a frame that passes. -/
inductive Admission where
  | coldStart
  | clockRegression
  | epochRegression
  | reconnect
  | stale
  | pass (fvReset : Bool)
  deriving DecidableEq, Repr

/-- The frame is held, and the state unchanged. -/
def Admission.isRejected : Admission → Bool
  | .clockRegression | .epochRegression | .stale => true
  | _ => false

/-- `as_of_ts < last_as_of_ts`. -/
def clockRegressed (observation : StrategyObservation) (state : StrategyState) : Bool :=
  state.lastAsOfTs.any (observation.asOfTs < ·)

/-- `observation_sequence <= last_observation_sequence`. -/
def sequenceStale (observation : StrategyObservation) (state : StrategyState) : Bool :=
  state.lastObservationSequence.any (observation.observationSequence ≤ ·)

/-- The watermark checks of `_decide_raw`, in order. -/
def admission (observation : StrategyObservation) (state : StrategyState)
    (config : StrategyConfig) : Admission :=
  match state.lastBookSourceEpoch with
  | none => .coldStart
  | some lastEpoch =>
    if clockRegressed observation state then .clockRegression
    else if observation.bookSourceEpoch < lastEpoch ∨
        guardEpochDelta observation state config < 0 then .epochRegression
    else if lastEpoch < observation.bookSourceEpoch then .reconnect
    else if sequenceStale observation state then .stale
    else .pass (0 < guardEpochDelta observation state config)

/-! ## What the verdicts say -/

section Verdicts

variable {observation : StrategyObservation} {state : StrategyState} {config : StrategyConfig}

theorem admission_coldStart (h : admission observation state config = .coldStart) :
    state.lastBookSourceEpoch = none := by
  unfold admission at h
  cases hepoch : state.lastBookSourceEpoch with
  | none => rfl
  | some lastEpoch =>
    rw [hepoch] at h
    dsimp only at h
    split_ifs at h

/-- **A reconnect**: no regression, and a book epoch above the watermark. The sequence is not
read. -/
theorem admission_reconnect_iff : admission observation state config = .reconnect ↔
    ∃ lastEpoch, state.lastBookSourceEpoch = some lastEpoch ∧
      clockRegressed observation state = false ∧ 0 ≤ guardEpochDelta observation state config ∧
      lastEpoch < observation.bookSourceEpoch := by
  unfold admission
  cases state.lastBookSourceEpoch with
  | none => simp
  | some lastEpoch =>
    simp only [Option.some.injEq, exists_eq_left']
    constructor
    · intro h
      split_ifs at h with hclock hepoch hreconnect
      rw [not_or, not_lt, not_lt] at hepoch
      exact ⟨by simpa using hclock, hepoch.2, hreconnect⟩
    · rintro ⟨hclock, hguard, hreconnect⟩
      have hepoch : ¬ (observation.bookSourceEpoch < lastEpoch ∨
          guardEpochDelta observation state config < 0) := by omega
      simp [hclock, hepoch, hreconnect]

/-- **A frame that passes**: no regression, the same book epoch and a later sequence. -/
theorem admission_pass_iff {fvReset : Bool} :
    admission observation state config = .pass fvReset ↔
      state.lastBookSourceEpoch = some observation.bookSourceEpoch ∧
      clockRegressed observation state = false ∧ 0 ≤ guardEpochDelta observation state config ∧
      sequenceStale observation state = false ∧
      fvReset = decide (0 < guardEpochDelta observation state config) := by
  unfold admission
  cases state.lastBookSourceEpoch with
  | none => simp
  | some lastEpoch =>
    simp only [Option.some.injEq]
    constructor
    · intro h
      split_ifs at h with hclock hepoch hreconnect hstale
      rw [not_or, not_lt, not_lt] at hepoch
      refine ⟨by omega, by simpa using hclock, hepoch.2, by simpa using hstale, ?_⟩
      exact (Admission.pass.inj h).symm
    · rintro ⟨rfl, hclock, hguard, hstale, rfl⟩
      have hguard' : ¬ guardEpochDelta observation state config < 0 := by omega
      simp [hclock, hguard', hstale]

/-- The watermark a frame leaves says the same of its own status as the one before it. -/
theorem effectiveMarketStatus_accept (fullReset basisReset : Bool) :
    effectiveMarketStatus observation (accept observation state config fullReset basisReset) config =
      effectiveMarketStatus observation state config := by
  have hepoch : (accept observation state config fullReset basisReset).lastMarketStatusEpoch =
      (statusWatermark observation state config).1 := by
    cases fullReset <;> cases basisReset <;> rfl
  have hrecv : (accept observation state config fullReset basisReset).lastMarketStatusRecvTs =
      (statusWatermark observation state config).2 := by
    cases fullReset <;> cases basisReset <;> rfl
  by_cases hunknown : effectiveMarketStatus observation state config = .unknown
  · -- the watermark stood still, so the status regresses from it as before
    have hsame : statusRegressed observation
        (accept observation state config fullReset basisReset) =
          statusRegressed observation state := by
      simp only [statusRegressed, hepoch, hrecv, statusWatermark, hunknown, if_true]
    simp only [effectiveMarketStatus, hsame]
  · -- the watermark is the frame's own, and nothing regresses from itself
    have hown : statusRegressed observation
        (accept observation state config fullReset basisReset) = false := by
      unfold statusRegressed
      rw [hepoch, hrecv]
      simp only [statusWatermark, hunknown, if_false]
      cases observation.marketStatusEpoch <;> cases observation.marketStatusRecvTs <;> simp
    have hbefore := hunknown
    unfold effectiveMarketStatus at hbefore ⊢
    split_ifs at hbefore with hraw hstale
    · simp at hbefore
    · simp at hbefore
    · rw [Bool.or_eq_true, not_or, Bool.not_eq_true, Bool.not_eq_true] at hstale
      simp [hraw, hstale.1, hstale.2, hown]

end Verdicts

end Veridex.MmStrategy
