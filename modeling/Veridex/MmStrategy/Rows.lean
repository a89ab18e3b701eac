import Veridex.Py.Text
import Veridex.MmStrategy.Basis
import Veridex.MmStrategy.Watermark

/-!
# The rows of an accepted frame (`mm_strategy/core.py`)

The raw venue facts, the triggers and gates of the S/R/E/D/C/F/W/H reducer, and `classifyRow`, which
puts an accepted frame in exactly one of the seven rows below row S. All gates read the state before
the frame. A rolling reference of no samples raises, so the classification may; it does not on warm
references, and it never reads cold ones (`classifyRow_ok`).
-/

namespace Veridex.MmStrategy

open Veridex.Py Veridex.Lib

/-- `Row`. -/
inductive Row where
  | R
  | E
  | D
  | C
  | F
  | W
  | H
  deriving DecidableEq, Repr

variable (observation : StrategyObservation) (state : StrategyState) (config : StrategyConfig)

/-! ## Raw facts -/

/-- `_mid`. -/
def mid : Option ℚ :=
  match observation.bid, observation.ask with
  | some bid, some ask => some ((bid + ask) / 2)
  | _, _ => none

/-- `_spread`. -/
def spread : Option ℚ :=
  match observation.bid, observation.ask with
  | some bid, some ask => some (ask - bid)
  | _, _ => none

/-- `_top_depth`. -/
def topDepth : Option ℚ :=
  match observation.bidSize, observation.askSize with
  | some bidSize, some askSize => some (min bidSize askSize)
  | _, _ => none

/-- `book_status in ("gap", "excluded")`. -/
def bookInGap : Bool := observation.bookStatus ∈ [BookStatus.gap, BookStatus.excluded]

/-- `_book_is_stale`. -/
def bookIsStale : Bool := config.bookFreshnessMs < observation.asOfTs - observation.bookRecvTs

/-- `_leg_is_skewed`. -/
def legIsSkewed : Bool :=
  config.maxLegSkewMs < |observation.bookRecvTs - observation.matchStateRecvTs|

/-! ## Triggers and gates -/

/-- `_cooldown_active`. -/
def cooldownActive : Bool := state.eventCooldownUntilTs.any (observation.asOfTs < ·)

/-- `_references_warm`. -/
def referencesWarm : Bool :=
  state.smootherMid.isSome && referenceIsWarm state.spreadRefSamples.length config &&
    referenceIsWarm state.depthRefSamples.length config

/-- `_phase_transition`. -/
def phaseTransition : Bool := state.lastPhase.any (observation.phase ≠ ·)

/-- `_suspension_reopen`. -/
def suspensionReopen : Bool := state.lastSuspended == some true && !observation.suspended

/-- `_gap_episode_end`. -/
def gapEpisodeEnd : Bool := state.lastBookInGap == some true && !bookInGap observation

/-- `_reset_reason`. -/
def resetReason : ReasonCode :=
  if observation.tickRegimeChanged then .tickRegimeChanged
  else if phaseTransition observation state then .phaseTransition
  else .eventRefWarmup

/-- Depth-vanish: below the floor, or below the collapse ratio of the rolling depth. -/
def depthVanished : Except PyExc Bool :=
  match topDepth observation with
  | none => .ok false
  | some depth => do
    let depthRef ← rollingDepthReference state.depthRefSamples config
    return PyFloat.lt (.fin depth) config.minTopDepth || depth < config.depthCollapseRatio * depthRef

/-- Spread-blowout: wider than the multiple of the rolling spread. -/
def spreadBlownOut : Except PyExc Bool :=
  match spread observation with
  | none => .ok false
  | some spread => do
    let spreadRef ← rollingSpreadReference state.spreadRefSamples config
    return (config.spreadBlowoutMultiple.mul (.fin spreadRef)).lt (.fin spread)

/-- Mid-jump: away from the smoothed prior mid by more than the threshold. -/
def midJumped : Bool :=
  match mid observation, state.smootherMid with
  | some mid, some smootherMid => config.midJumpThreshold.lt (.fin |mid - smootherMid|)
  | _, _ => false

/-- `_venue_event_reason`. -/
def venueEventReason : Except PyExc (Option ReasonCode) := do
  if ← depthVanished observation state config then return some .bookThin
  else if ← spreadBlownOut observation state config then return some .bookThin
  else if midJumped observation state config then return some .bookThin
  else if observation.levelCountInBand < config.minLevelCount then return some .levelCountLow
  else return none

/-! ## The classification -/

/-- A reset-class trigger of `_classify_row`. -/
def resetTriggered : Bool :=
  observation.tickRegimeChanged || phaseTransition observation state ||
    suspensionReopen observation state || gapEpisodeEnd observation state

/-- `_references_warm and _venue_event_reason`: the ratio, jump and floor gates, on warm references
only. -/
def warmVenueEvent : Except PyExc (Option ReasonCode) :=
  if referencesWarm state config then venueEventReason observation state config else .ok none

/-- The rows of `_classify_row` below row E. -/
def rowBelowEvent : Row :=
  if bookIsStale observation config || legIsSkewed observation config then .D
  else if cooldownActive observation state then .C
  else if 0 < guardEpochDelta observation state config then .F
  else if !referencesWarm state config then .W
  else .H

/-- `_classify_row`. -/
def classifyRow : Except PyExc Row := do
  if resetTriggered observation state then return .R
  else if bookInGap observation then return .E
  else if (← warmVenueEvent observation state config).isSome then return .E
  else return rowBelowEvent observation state config

/-! ## Quote-only blockers -/

/-- `_status_stream_reason`. -/
def statusStreamReason : Option ReasonCode :=
  match effectiveMarketStatus observation state config with
  | .unknown => some .marketStatusUnknown
  | .halted => some .marketHalted
  | .closed => some .marketClosed
  | .active =>
    if !observation.orderStreamOk then some .streamDegraded
    else if !observation.projectionFresh then some .projectionStale
    else none

/-- `_token_mapping_reason`. -/
def tokenMappingReason : Option ReasonCode :=
  if strip observation.tokenId = "" then some .tokenMappingMissing else none

/-- `_suspended_block_reason`. -/
def suspendedBlockReason : Option ReasonCode :=
  if observation.suspended then some .txlineSuspended else none

/-! ## What the rows say -/

variable {observation state config}

@[simp] theorem bookInGap_eq_false : bookInGap observation = false ↔ observation.bookStatus = .ok := by
  unfold bookInGap
  cases observation.bookStatus <;> decide

theorem referencesWarm_iff : referencesWarm state config = true ↔
    state.smootherMid ≠ none ∧ config.refMinSamples ≤ state.spreadRefSamples.length ∧
      config.refMinSamples ≤ state.depthRefSamples.length := by
  simp [referencesWarm, referenceIsWarm, Option.isSome_iff_ne_none, and_assoc]

/-- Warm references hold samples. -/
theorem samples_ne_nil_of_warm (h : referencesWarm state config = true) :
    state.spreadRefSamples ≠ [] ∧ state.depthRefSamples ≠ [] := by
  obtain ⟨-, hspread, hdepth⟩ := referencesWarm_iff.mp h
  have hmin := config.refMinSamples_pos
  rw [← List.length_pos_iff, ← List.length_pos_iff]
  omega

/-- The event gates return where both references hold samples. -/
theorem venueEventReason_ok (hspread : state.spreadRefSamples ≠ [])
    (hdepth : state.depthRefSamples ≠ []) :
    ∃ reason, venueEventReason observation state config = .ok reason := by
  have hvanish : ∃ b, depthVanished observation state config = .ok b := by
    unfold depthVanished
    cases topDepth observation with
    | none => exact ⟨false, rfl⟩
    | some depth => exact exists_bind_ok (rollingDepthReference_ok config hdepth) fun _ _ => ⟨_, rfl⟩
  have hblown : ∃ b, spreadBlownOut observation state config = .ok b := by
    unfold spreadBlownOut
    cases spread observation with
    | none => exact ⟨false, rfl⟩
    | some spread =>
      exact exists_bind_ok (rollingSpreadReference_ok config hspread) fun _ _ => ⟨_, rfl⟩
  refine exists_bind_ok hvanish fun vanished _ => ?_
  by_cases hv : vanished = true
  · rw [if_pos hv]
    exact ⟨_, rfl⟩
  · rw [if_neg hv]
    refine exists_bind_ok hblown fun blown _ => ?_
    split_ifs <;> exact ⟨_, rfl⟩

theorem warmVenueEvent_ok (observation : StrategyObservation) (state : StrategyState)
    (config : StrategyConfig) : ∃ reason, warmVenueEvent observation state config = .ok reason := by
  unfold warmVenueEvent
  split_ifs with hwarm
  · obtain ⟨hspread, hdepth⟩ := samples_ne_nil_of_warm hwarm
    exact venueEventReason_ok hspread hdepth
  · exact ⟨none, rfl⟩

/-- A venue event is one of warm references. -/
theorem warm_of_warmVenueEvent {reason : ReasonCode}
    (h : warmVenueEvent observation state config = .ok (some reason)) :
    referencesWarm state config = true := by
  unfold warmVenueEvent at h
  by_contra hcold
  rw [if_neg hcold] at h
  exact absurd (Except.ok.inj h) (by simp)

/-- The classification returns. -/
theorem classifyRow_ok : ∃ row, classifyRow observation state config = .ok row := by
  unfold classifyRow
  by_cases hreset : resetTriggered observation state = true
  · rw [if_pos hreset]
    exact ⟨_, rfl⟩
  · rw [if_neg hreset]
    by_cases hgap : bookInGap observation = true
    · rw [if_pos hgap]
      exact ⟨_, rfl⟩
    · rw [if_neg hgap]
      refine exists_bind_ok (warmVenueEvent_ok observation state config) fun reason _ => ?_
      split_ifs <;> exact ⟨_, rfl⟩

/-- The frame triggers an event: a gap book, or a warm venue event. -/
def EventTriggered (observation : StrategyObservation) (state : StrategyState)
    (config : StrategyConfig) : Prop :=
  bookInGap observation = true ∨ ∃ reason, warmVenueEvent observation state config = .ok (some reason)

/-- **The classification**, by what each row says of the frame. -/
theorem classifyRow_cases {row : Row} (h : classifyRow observation state config = .ok row) :
    (row = .R ∧ resetTriggered observation state = true) ∨
    (row = .E ∧ resetTriggered observation state = false ∧
      EventTriggered observation state config) ∨
    (row = rowBelowEvent observation state config ∧ resetTriggered observation state = false ∧
      observation.bookStatus = .ok ∧ warmVenueEvent observation state config = .ok none) := by
  unfold classifyRow at h
  by_cases hreset : resetTriggered observation state = true
  · rw [if_pos hreset] at h
    exact .inl ⟨(Except.ok.inj h).symm, hreset⟩
  · rw [if_neg hreset] at h
    right
    rw [Bool.not_eq_true] at hreset
    by_cases hgap : bookInGap observation = true
    · rw [if_pos hgap] at h
      exact .inl ⟨(Except.ok.inj h).symm, hreset, .inl hgap⟩
    · rw [if_neg hgap] at h
      obtain ⟨reason, hreason, h⟩ := bind_eq_ok.mp h
      cases reason with
      | none =>
        exact .inr ⟨(Except.ok.inj h).symm, hreset, bookInGap_eq_false.mp (by simpa using hgap),
          hreason⟩
      | some reason => exact .inl ⟨(Except.ok.inj h).symm, hreset, .inr ⟨reason, hreason⟩⟩

/-- The three admitting rows are fresh, unskewed and past the cooldown. -/
theorem rowBelowEvent_cases (observation : StrategyObservation) (state : StrategyState)
    (config : StrategyConfig) :
    (rowBelowEvent observation state config = .D ∧
      (bookIsStale observation config = true ∨ legIsSkewed observation config = true)) ∨
    (bookIsStale observation config = false ∧ legIsSkewed observation config = false ∧
      ((rowBelowEvent observation state config = .C ∧ cooldownActive observation state = true) ∨
      (cooldownActive observation state = false ∧
        ((rowBelowEvent observation state config = .F ∧
            0 < guardEpochDelta observation state config) ∨
        (guardEpochDelta observation state config ≤ 0 ∧
          ((rowBelowEvent observation state config = .W ∧ referencesWarm state config = false) ∨
          (rowBelowEvent observation state config = .H ∧
            referencesWarm state config = true))))))) := by
  unfold rowBelowEvent
  by_cases hstale : bookIsStale observation config = true
  · simp [hstale]
  · by_cases hskew : legIsSkewed observation config = true
    · simp [hskew]
    · by_cases hcool : cooldownActive observation state = true
      · simp [hstale, hskew, hcool]
      · by_cases hfv : 0 < guardEpochDelta observation state config
        · simp [hstale, hskew, hcool, hfv]
        · by_cases hwarm : referencesWarm state config = true
          · simp [hstale, hskew, hcool, hfv, hwarm, not_lt.mp hfv]
          · simp [hstale, hskew, hcool, hfv, hwarm, not_lt.mp hfv]

end Veridex.MmStrategy
