import Veridex.MmStrategy.Decide

/-!
# What one call of `decide` can do

`Moves` lists the frames: held by the watermark layer, accepted as a cold start or a reconnect, or
put in a row. Each constructor says what was checked, the decision and the next state, so an
invariant of `decide` is a case analysis over it (`Moves.of_decideRaw`). The fields of a state fall
in three groups: the watermark, which every accepted frame advances the same way (`Moves.accepted`),
the venue accumulators and the basis.

`decideFrame_ok`: on a state that holds the data its basis count promises (`StrategyState.Sound`,
which every frame keeps), `decide` raises nothing.
-/

namespace Veridex.MmStrategy

open Veridex.Py Veridex.Lib

/-! ## The groups of fields -/

/-- The fields `_accept` advances on every accepted frame. -/
structure Watermark where
  observationSequence : Option ℤ
  bookSourceEpoch : Option ℤ
  asOfTs : Option ℤ
  marketStatusEpoch : Option ℤ
  marketStatusRecvTs : Option ℤ
  guard : Option GuardStateWatermark
  phase : Option ℤ
  suspended : Option Bool
  bookInGap : Option Bool
  deriving DecidableEq

/-- The watermark of a state. -/
def StrategyState.watermark (state : StrategyState) : Watermark where
  observationSequence := state.lastObservationSequence
  bookSourceEpoch := state.lastBookSourceEpoch
  asOfTs := state.lastAsOfTs
  marketStatusEpoch := state.lastMarketStatusEpoch
  marketStatusRecvTs := state.lastMarketStatusRecvTs
  guard := state.guardWatermark
  phase := state.lastPhase
  suspended := state.lastSuspended
  bookInGap := state.lastBookInGap

/-- The smoother and the rolling references. -/
structure VenueAccumulators where
  smootherMid : Option ℚ
  smootherMidTs : Option ℤ
  spreadRefSamples : List ℚ
  depthRefSamples : List ℚ
  deriving DecidableEq

/-- The venue accumulators of a state. -/
def StrategyState.venue (state : StrategyState) : VenueAccumulators where
  smootherMid := state.smootherMid
  smootherMidTs := state.smootherMidTs
  spreadRefSamples := state.spreadRefSamples
  depthRefSamples := state.depthRefSamples

/-- The basis fields of a state. -/
def StrategyState.basisFields (state : StrategyState) :
    List (ℤ × ℚ) × Option ℚ × Option ℤ × ℕ :=
  (state.basisSamples, state.basisEwmaValue, state.basisEwmaTs, state.basisSampleCount)

section Fields

variable (halfPow : ℚ → ℚ) (observation : StrategyObservation) (state base : StrategyState)
  (config : StrategyConfig) (fullReset basisReset : Bool)

@[simp] theorem accept_watermark : (accept observation state config fullReset basisReset).watermark =
    (advanceWatermark observation state config).watermark := by
  cases fullReset <;> cases basisReset <;> rfl

@[simp] theorem accept_venue : (accept observation state config false basisReset).venue =
    state.venue := by
  cases basisReset <;> rfl

@[simp] theorem accept_cooldown :
    (accept observation state config fullReset basisReset).eventCooldownUntilTs =
      state.eventCooldownUntilTs := by
  cases fullReset <;> cases basisReset <;> rfl

theorem admitGap_fields (rawGap : ℚ) :
    (admitGap halfPow observation base config rawGap).watermark = base.watermark ∧
      (admitGap halfPow observation base config rawGap).venue = base.venue := by
  unfold admitGap
  cases config.basisEstimator <;> exact ⟨rfl, rfl⟩

/-- The guarded basis is all `_admit_basis_updates` writes. -/
theorem admitBasisUpdates_fields :
    (admitBasisUpdates halfPow observation base config).watermark = base.watermark ∧
      (admitBasisUpdates halfPow observation base config).venue = base.venue := by
  unfold admitBasisUpdates
  cases config.guardEnabled with
  | false => exact ⟨rfl, rfl⟩
  | true =>
    cases observation.guardFv with
    | none => exact ⟨rfl, rfl⟩
    | some guardFv =>
      by_cases hblock : (guardFvBlockReason observation config).isSome = true
      · simp [hblock]
      · cases mid observation with
        | none => simp
        | some mid => simpa [hblock] using admitGap_fields _ _ _ _ _

@[simp] theorem admitHealthy_watermark :
    (admitHealthy halfPow observation base config).watermark = base.watermark :=
  (admitBasisUpdates_fields halfPow observation
    (admitVenueUpdates halfPow observation base config) config).1

@[simp] theorem admitHealthy_venue : (admitHealthy halfPow observation base config).venue =
    (admitVenueUpdates halfPow observation base config).venue :=
  (admitBasisUpdates_fields halfPow observation
    (admitVenueUpdates halfPow observation base config) config).2

@[simp] theorem admitHealthy_cooldown :
    (admitHealthy halfPow observation base config).eventCooldownUntilTs = none := rfl

@[simp] theorem resetState_watermark :
    (resetState observation base config).watermark = base.watermark := rfl

@[simp] theorem resetState_cooldown : (resetState observation base config).eventCooldownUntilTs =
    some (cooldownDeadline observation config) := rfl

@[simp] theorem eventState_watermark :
    (eventState observation base config).watermark = base.watermark := rfl

@[simp] theorem eventState_venue :
    (eventState observation base config).venue = base.venue := rfl

@[simp] theorem eventState_cooldown : (eventState observation base config).eventCooldownUntilTs =
    some (cooldownDeadline observation config) := rfl

end Fields

/-! ## The steps -/

section Steps

variable (platform : Platform) (observation : StrategyObservation) (state : StrategyState)
  (config : StrategyConfig)

/-- What `_decide_raw` decides of a frame, and the state it moves to. -/
inductive Moves : StrategyDecision → StrategyState → Prop
  | coldStart (verdict : admission observation state config = .coldStart) :
      Moves (hold []) (accept observation state config true false)
  | rejected (reason : ReasonCode)
      (verdict : (admission observation state config).isRejected = true) :
      Moves (hold [reason]) state
  | reconnect (verdict : admission observation state config = .reconnect) :
      Moves (decideKind .noQuote [.eventRefWarmup])
        (resetState observation (accept observation state config true false) config)
  | reset (fvReset : Bool) (verdict : admission observation state config = .pass fvReset)
      (row : classifyRow observation state config = .ok .R) :
      Moves (decideKind .noQuote [resetReason observation state])
        (resetState observation (accept observation state config false fvReset) config)
  | event (fvReset : Bool) (reason : ReasonCode)
      (verdict : admission observation state config = .pass fvReset)
      (row : classifyRow observation state config = .ok .E) :
      Moves (decideKind .noQuote [reason])
        (eventState observation (accept observation state config false fvReset) config)
  | degraded (fvReset : Bool) (reasons : List ReasonCode)
      (verdict : admission observation state config = .pass fvReset)
      (row : classifyRow observation state config = .ok .D) :
      Moves (decideKind .noQuote reasons) (accept observation state config false fvReset)
  | cooling (fvReset : Bool) (verdict : admission observation state config = .pass fvReset)
      (row : classifyRow observation state config = .ok .C) :
      Moves (decideKind .noQuote [.eventCooldown]) (accept observation state config false fvReset)
  | healthy (fvReset : Bool) (row : Row) (decision : StrategyDecision)
      (verdict : admission observation state config = .pass fvReset)
      (classified : classifyRow observation state config = .ok row)
      (admits : row = .F ∨ row = .W ∨ row = .H)
      (decided : applyHealthy platform observation (accept observation state config false fvReset)
        config row = .ok (decision, admitHealthy platform.halfPow observation
          (accept observation state config false fvReset) config)) :
      Moves decision (admitHealthy platform.halfPow observation
        (accept observation state config false fvReset) config)

variable {platform observation state config}
variable {decision : StrategyDecision} {nextState : StrategyState}

/-- A cold start is accepted, and nothing else. -/
theorem Moves.of_coldStart (h : Moves platform observation state config decision nextState)
    (hverdict : admission observation state config = .coldStart) :
    nextState = accept observation state config true false := by
  cases h with
  | coldStart => rfl
  | rejected _ verdict | reconnect verdict | reset _ verdict | event _ _ verdict
  | degraded _ _ verdict | cooling _ verdict | healthy _ _ _ verdict =>
    rw [hverdict] at verdict
    cases verdict

theorem applyHealthy_state {base : StrategyState} {row : Row}
    (h : applyHealthy platform observation base config row = .ok (decision, nextState)) :
    nextState = admitHealthy platform.halfPow observation base config := by
  unfold applyHealthy at h
  by_cases hwarmup : row = .W ∨ (row = .F ∧ referencesWarm base config = false)
  · rw [if_pos hwarmup] at h
    exact (Prod.ext_iff.mp (Except.ok.inj h)).2.symm
  · rw [if_neg hwarmup] at h
    cases hblock : quoteBlocker observation base config with
    | some blocker =>
      rw [hblock] at h
      exact (Prod.ext_iff.mp (Except.ok.inj h)).2.symm
    | none =>
      rw [hblock] at h
      obtain ⟨disposition, -, h⟩ := bind_eq_ok.mp h
      split_ifs at h
      · exact (Prod.ext_iff.mp (Except.ok.inj h)).2.symm
      · exact (Prod.ext_iff.mp (Except.ok.inj h)).2.symm

theorem applyEvent_state {base : StrategyState}
    (h : applyEvent observation base config = .ok (decision, nextState)) :
    ∃ reason, decision = decideKind .noQuote [reason] ∧
      nextState = eventState observation base config := by
  unfold applyEvent at h
  obtain ⟨reason, -, h⟩ := bind_eq_ok.mp h
  obtain ⟨hdecision, hstate⟩ := Prod.ext_iff.mp (Except.ok.inj h)
  exact ⟨reason, hdecision.symm, hstate.symm⟩

/-- `_decide_raw` by the verdict of the watermark layer. -/
theorem decideRaw_eq : decideRaw platform observation state config =
    match admission observation state config with
    | .coldStart => .ok (hold [], accept observation state config true false)
    | .clockRegression => .ok (hold [.clockRegression], state)
    | .epochRegression => .ok (hold [.epochRegression], state)
    | .reconnect =>
      .ok (applyReset observation (accept observation state config true false) config
        .eventRefWarmup)
    | .stale => .ok (hold [.staleObservation], state)
    | .pass fvReset => reduceFrame platform observation state config fvReset := by
  unfold decideRaw admission
  cases state.lastBookSourceEpoch with
  | none => rfl
  | some lastEpoch =>
    by_cases hclock : clockRegressed observation state = true
    · simp [hclock]
    · by_cases hepoch : observation.bookSourceEpoch < lastEpoch ∨
          guardEpochDelta observation state config < 0
      · simp [hclock, hepoch]
      · by_cases hreconnect : lastEpoch < observation.bookSourceEpoch
        · simp [hclock, hepoch, hreconnect]
        · by_cases hstale : sequenceStale observation state = true
          · simp [hclock, hepoch, hreconnect, hstale]
          · simp only [hclock, hepoch, hreconnect, hstale, if_false, Bool.false_eq_true]

/-- **One call.** -/
theorem Moves.of_decideRaw (h : decideRaw platform observation state config =
    .ok (decision, nextState)) : Moves platform observation state config decision nextState := by
  rw [decideRaw_eq] at h
  cases hverdict : admission observation state config with
  | coldStart =>
    rw [hverdict] at h
    obtain ⟨rfl, rfl⟩ := Prod.ext_iff.mp (Except.ok.inj h)
    exact .coldStart hverdict
  | clockRegression =>
    rw [hverdict] at h
    obtain ⟨rfl, rfl⟩ := Prod.ext_iff.mp (Except.ok.inj h)
    exact .rejected _ (by rw [hverdict]; rfl)
  | epochRegression =>
    rw [hverdict] at h
    obtain ⟨rfl, rfl⟩ := Prod.ext_iff.mp (Except.ok.inj h)
    exact .rejected _ (by rw [hverdict]; rfl)
  | stale =>
    rw [hverdict] at h
    obtain ⟨rfl, rfl⟩ := Prod.ext_iff.mp (Except.ok.inj h)
    exact .rejected _ (by rw [hverdict]; rfl)
  | reconnect =>
    rw [hverdict] at h
    obtain ⟨rfl, rfl⟩ := Prod.ext_iff.mp (Except.ok.inj h)
    exact .reconnect hverdict
  | pass fvReset =>
    rw [hverdict] at h
    obtain ⟨row, hrow, h⟩ := bind_eq_ok.mp h
    cases row with
    | R =>
      obtain ⟨rfl, rfl⟩ := Prod.ext_iff.mp (Except.ok.inj h)
      exact .reset fvReset hverdict hrow
    | E =>
      obtain ⟨reason, rfl, rfl⟩ := applyEvent_state h
      exact .event fvReset reason hverdict hrow
    | D =>
      obtain ⟨rfl, rfl⟩ := Prod.ext_iff.mp (Except.ok.inj h)
      exact .degraded fvReset _ hverdict hrow
    | C =>
      obtain ⟨rfl, rfl⟩ := Prod.ext_iff.mp (Except.ok.inj h)
      exact .cooling fvReset hverdict hrow
    | F =>
      obtain rfl := applyHealthy_state h
      exact .healthy fvReset .F _ hverdict hrow (by decide) h
    | W =>
      obtain rfl := applyHealthy_state h
      exact .healthy fvReset .W _ hverdict hrow (by decide) h
    | H =>
      obtain rfl := applyHealthy_state h
      exact .healthy fvReset .H _ hverdict hrow (by decide) h

/-- An accepted frame advances the watermark, a rejected one leaves the state. -/
theorem Moves.accepted (h : Moves platform observation state config decision nextState) :
    ((admission observation state config).isRejected = true ∧ nextState = state) ∨
    ((admission observation state config).isRejected = false ∧
      nextState.watermark = (advanceWatermark observation state config).watermark) := by
  cases h with
  | rejected reason verdict => exact .inl ⟨verdict, rfl⟩
  | coldStart verdict => exact .inr ⟨by rw [verdict]; rfl, by simp⟩
  | reconnect verdict => exact .inr ⟨by rw [verdict]; rfl, by simp⟩
  | reset fvReset verdict => exact .inr ⟨by rw [verdict]; rfl, by simp⟩
  | event fvReset reason verdict => exact .inr ⟨by rw [verdict]; rfl, by simp⟩
  | degraded fvReset reasons verdict => exact .inr ⟨by rw [verdict]; rfl, by simp⟩
  | cooling fvReset verdict => exact .inr ⟨by rw [verdict]; rfl, by simp⟩
  | healthy fvReset row decision verdict => exact .inr ⟨by rw [verdict]; rfl, by simp⟩

/-! ## `decide` raises nothing -/

/-- A state whose basis count is not zero holds the data the estimator reduces. -/
def StrategyState.Sound (state : StrategyState) (config : StrategyConfig) : Prop :=
  0 < state.basisSampleCount → HasBasis state config

theorem StrategyState.Sound.init : StrategyState.Sound {} config := by
  intro h
  exact absurd h (lt_irrefl 0)

theorem StrategyState.Sound.of_basisFields {base : StrategyState} (h : base.Sound config)
    (hfields : nextState.basisFields = base.basisFields) : nextState.Sound config := by
  simp only [StrategyState.basisFields, Prod.mk.injEq] at hfields
  obtain ⟨hsamples, hvalue, -, hcount⟩ := hfields
  intro hpos
  have hbasis := h (hcount ▸ hpos)
  unfold HasBasis at hbasis ⊢
  rwa [hsamples, hvalue]

theorem StrategyState.Sound.warm {base : StrategyState} (h : base.Sound config)
    (hwarm : basisIsWarm base config = true) : HasBasis base config := by
  apply h
  have hmin := config.basisMinSamples_pos
  simp only [basisIsWarm, decide_eq_true_eq] at hwarm
  omega

theorem sound_accept (fullReset basisReset : Bool) (h : state.Sound config) :
    (accept observation state config fullReset basisReset).Sound config := by
  cases fullReset with
  | true =>
    intro hpos
    exact absurd hpos (lt_irrefl 0)
  | false =>
    cases basisReset with
    | true =>
      intro hpos
      exact absurd hpos (lt_irrefl 0)
    | false => exact h.of_basisFields rfl

theorem sound_admitGap (halfPow : ℚ → ℚ) (base : StrategyState) (rawGap : ℚ) :
    (admitGap halfPow observation base config rawGap).Sound config := by
  intro _
  unfold HasBasis admitGap
  cases hkind : config.basisEstimator with
  | halflifeEwma => simp
  | rollingMedian => simp [lastN_eq_nil_iff config.basisWindow_pos]

theorem sound_admitHealthy (halfPow : ℚ → ℚ) {base : StrategyState} (h : base.Sound config) :
    (admitHealthy halfPow observation base config).Sound config := by
  have hvenue : (admitVenueUpdates halfPow observation base config).Sound config :=
    h.of_basisFields rfl
  have hbasis : (admitBasisUpdates halfPow observation
      (admitVenueUpdates halfPow observation base config) config).Sound config := by
    unfold admitBasisUpdates
    split
    · split_ifs
      · exact hvenue
      · split
        · exact hvenue
        · exact sound_admitGap halfPow _ _
    · exact hvenue
  exact hbasis.of_basisFields rfl

/-- Every frame keeps it. -/
theorem Moves.sound (h : Moves platform observation state config decision nextState)
    (hsound : state.Sound config) : nextState.Sound config := by
  cases h with
  | coldStart => exact sound_accept true false hsound
  | rejected => exact hsound
  | reconnect =>
    intro hpos
    exact absurd hpos (lt_irrefl 0)
  | reset =>
    intro hpos
    exact absurd hpos (lt_irrefl 0)
  | event fvReset => exact (sound_accept false fvReset hsound).of_basisFields rfl
  | degraded fvReset => exact sound_accept false fvReset hsound
  | cooling fvReset => exact sound_accept false fvReset hsound
  | healthy fvReset => exact sound_admitHealthy _ (sound_accept false fvReset hsound)

theorem applyHealthy_ok (platform : Platform) (observation : StrategyObservation)
    {base : StrategyState} (h : base.Sound config) (row : Row) :
    ∃ result, applyHealthy platform observation base config row = .ok result := by
  unfold applyHealthy
  dsimp only
  split_ifs
  · exact ⟨_, rfl⟩
  · cases quoteBlocker observation base config with
    | some blocker => exact ⟨_, rfl⟩
    | none =>
      refine exists_bind_ok (quoteDisposition_ok h.warm) fun disposition _ => ?_
      split_ifs <;> exact ⟨_, rfl⟩

/-- A triggered event has its reason, also after the watermark advanced. -/
theorem eventReason_ok (fvReset : Bool) (h : EventTriggered observation state config) :
    ∃ reason, eventReason observation (accept observation state config false fvReset) config =
      .ok reason := by
  unfold eventReason
  cases hbook : observation.bookStatus with
  | gap => exact ⟨_, rfl⟩
  | excluded => exact ⟨_, rfl⟩
  | ok =>
    rcases h with hgap | ⟨reason, hreason⟩
    · rw [bookInGap_eq_false.mpr hbook] at hgap
      exact absurd hgap (by decide)
    · obtain ⟨hspread, hdepth⟩ := samples_ne_nil_of_warm (warm_of_warmVenueEvent hreason)
      have hspread' : (accept observation state config false fvReset).spreadRefSamples ≠ [] := by
        cases fvReset <;> exact hspread
      have hdepth' : (accept observation state config false fvReset).depthRefSamples ≠ [] := by
        cases fvReset <;> exact hdepth
      exact exists_bind_ok (venueEventReason_ok hspread' hdepth') fun _ _ => ⟨_, rfl⟩

theorem reduceFrame_ok {fvReset : Bool} (h : state.Sound config) :
    ∃ result, reduceFrame platform observation state config fvReset = .ok result := by
  unfold reduceFrame
  refine exists_bind_ok classifyRow_ok fun row hrow => ?_
  have hbase : (accept observation state config false fvReset).Sound config :=
    sound_accept false fvReset h
  cases row with
  | R => exact ⟨_, rfl⟩
  | E =>
    obtain ⟨hR, -⟩ | ⟨-, -, hevent⟩ | ⟨hbelow, -⟩ := classifyRow_cases hrow
    · cases hR
    · exact exists_bind_ok (eventReason_ok fvReset hevent) fun _ _ => ⟨_, rfl⟩
    · unfold rowBelowEvent at hbelow
      split_ifs at hbelow
  | D => exact ⟨_, rfl⟩
  | C => exact ⟨_, rfl⟩
  | F => exact applyHealthy_ok platform observation hbase .F
  | W => exact applyHealthy_ok platform observation hbase .W
  | H => exact applyHealthy_ok platform observation hbase .H

/-- **`decide` is total** on the states it reaches. -/
theorem decideFrame_ok (platform : Platform) (observation : StrategyObservation)
    (h : state.Sound config) (sessionId : String) :
    ∃ result, decideFrame platform observation state config sessionId = .ok result := by
  have hraw : ∃ result, decideRaw platform observation state config = .ok result := by
    rw [decideRaw_eq]
    cases admission observation state config with
    | pass fvReset => exact reduceFrame_ok h
    | _ => exact ⟨_, rfl⟩
  exact exists_bind_ok hraw fun _ _ => ⟨_, rfl⟩

/-- `decide` funnels and stamps what `_decide_raw` decided, and leaves its state. -/
theorem decideFrame_cases {sessionId : String}
    (h : decideFrame platform observation state config sessionId = .ok (decision, nextState)) :
    ∃ raw, Moves platform observation state config raw nextState ∧
      decision = stampIdentity platform observation config
        (funnelCancelOnExposure observation raw) state nextState sessionId := by
  obtain ⟨⟨raw, rawState⟩, hraw, h⟩ := bind_eq_ok.mp h
  obtain ⟨hdecision, rfl⟩ := Prod.ext_iff.mp (Except.ok.inj h)
  exact ⟨raw, .of_decideRaw hraw, hdecision.symm⟩

end Steps

end Veridex.MmStrategy
