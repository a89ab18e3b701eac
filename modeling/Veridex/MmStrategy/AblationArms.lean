import Veridex.MmStrategy.WatermarkRuns

/-!
# The two arms of the ablation

The arms are one configuration with the guard on and with it off. `StrategyState.blind` forgets what
the guard alone reads: its generation and the basis. Blinding is a simulation: a frame of either arm
is, blinded, a frame of the unguarded arm (`DecideStep.blind`), row F as its underlying row W or H.
The one exception is a frame the guard holds alone: its FV epoch regressed, and nothing else of it
is rejected. The guarded arm skips that frame and the other trains on it.

Results: `armsAgree_iff`.
-/

namespace Veridex.MmStrategy

open Veridex.Py Veridex.Lib

/-- The configuration with its guard switched. -/
def StrategyConfig.arm (config : StrategyConfig) (guardEnabled : Bool) : StrategyConfig :=
  { config with guardEnabled := guardEnabled }

/-- The state without the guard's generation and the basis: its FV-independent fields. -/
def StrategyState.blind (state : StrategyState) : StrategyState :=
  { clearBasis state with guardWatermark := none }

/-- The row of a frame whose FV epoch is not read. -/
def Row.underlying (warm : Bool) : Row → Row
  | .F => if warm then .H else .W
  | row => row

/-- The guard holds the frame alone: its FV epoch regressed, and the unguarded arm takes it. -/
def HeldByGuard (observation : StrategyObservation) (state : StrategyState)
    (config : StrategyConfig) : Prop :=
  guardEpochDelta observation state (config.arm true) < 0 ∧
    ¬ Rejected observation state (config.arm false)

variable {platform : Platform} {config : StrategyConfig} {sessionId sessionId' : String}
  {observation : StrategyObservation} {state nextState : StrategyState}
  {decision : StrategyDecision} {guardEnabled : Bool}

/-! ## What blinding leaves of a frame -/

section Blinding

variable (observation : StrategyObservation) (state base : StrategyState) (config : StrategyConfig)
  (guardEnabled : Bool)

@[simp] theorem guardEpochDelta_unguarded :
    guardEpochDelta observation state (config.arm false) = 0 := rfl

theorem accept_blind (fullReset basisReset : Bool) :
    (accept observation state (config.arm guardEnabled) fullReset basisReset).blind =
      accept observation state.blind (config.arm false) fullReset false := by
  cases fullReset <;> cases basisReset <;> rfl

theorem admitBasisUpdates_blind (halfPow : ℚ → ℚ) :
    (admitBasisUpdates halfPow observation base config).blind = base.blind := by
  unfold admitBasisUpdates
  split
  · split_ifs
    · rfl
    · split
      · rfl
      · unfold admitGap
        split <;> rfl
  · rfl

/-- The unguarded arm trains the venue accumulators, and the guarded arm trains them alike. -/
theorem admitHealthy_blind (halfPow : ℚ → ℚ) :
    (admitHealthy halfPow observation base (config.arm guardEnabled)).blind =
      admitHealthy halfPow observation base.blind (config.arm false) := by
  have hbasis := admitBasisUpdates_blind observation
    (admitVenueUpdates halfPow observation base (config.arm guardEnabled))
    (config.arm guardEnabled) halfPow
  calc (admitHealthy halfPow observation base (config.arm guardEnabled)).blind
      = { (admitBasisUpdates halfPow observation
            (admitVenueUpdates halfPow observation base (config.arm guardEnabled))
            (config.arm guardEnabled)).blind with eventCooldownUntilTs := none } := rfl
    _ = { (admitVenueUpdates halfPow observation base (config.arm guardEnabled)).blind with
            eventCooldownUntilTs := none } := by rw [hbasis]
    _ = admitHealthy halfPow observation base.blind (config.arm false) := rfl

theorem rowBelowEvent_blind :
    rowBelowEvent observation state.blind (config.arm false) =
      (rowBelowEvent observation state (config.arm guardEnabled)).underlying
        (referencesWarm state config) := by
  have hstale : bookIsStale observation (config.arm false) =
      bookIsStale observation (config.arm guardEnabled) := rfl
  have hskew : legIsSkewed observation (config.arm false) =
      legIsSkewed observation (config.arm guardEnabled) := rfl
  have hcool : cooldownActive observation state.blind = cooldownActive observation state := rfl
  have hwarm : referencesWarm state.blind (config.arm false) = referencesWarm state config := rfl
  have hwarm' : referencesWarm state (config.arm guardEnabled) = referencesWarm state config := rfl
  unfold rowBelowEvent
  rw [hstale, hskew, hcool, hwarm, hwarm', guardEpochDelta_unguarded, if_neg (lt_irrefl 0)]
  split_ifs <;> simp_all [Row.underlying]

/-- The classification of a blinded frame is the underlying row. -/
theorem classifyRow_blind :
    classifyRow observation state.blind (config.arm false) =
      (classifyRow observation state (config.arm guardEnabled)).map
        (Row.underlying (referencesWarm state config)) := by
  have hreset : resetTriggered observation state.blind = resetTriggered observation state := rfl
  have hevent : warmVenueEvent observation state.blind (config.arm false) =
      warmVenueEvent observation state (config.arm guardEnabled) := rfl
  unfold classifyRow
  rw [hreset, hevent, rowBelowEvent_blind observation state config guardEnabled]
  by_cases hresets : resetTriggered observation state = true
  · rw [if_pos hresets, if_pos hresets]
    rfl
  · rw [if_neg hresets, if_neg hresets]
    by_cases hgap : bookInGap observation = true
    · rw [if_pos hgap, if_pos hgap]
      rfl
    · rw [if_neg hgap, if_neg hgap]
      obtain ⟨reason, hreason⟩ := warmVenueEvent_ok observation state (config.arm guardEnabled)
      rw [hreason]
      cases reason <;> rfl

end Blinding

/-! ## Frames -/

/-- A frame the guard does not hold alone is rejected in the unguarded arm too. -/
theorem rejected_blind (hheld : guardEnabled = true → ¬ HeldByGuard observation state config)
    (h : Rejected observation state (config.arm guardEnabled)) :
    Rejected observation state.blind (config.arm false) := by
  obtain ⟨lastEpoch, hepoch, hclock | hbook | hguard | hstale⟩ := h
  · exact ⟨lastEpoch, hepoch, .inl hclock⟩
  · exact ⟨lastEpoch, hepoch, .inr (.inl hbook)⟩
  · cases guardEnabled with
    | false =>
      rw [guardEpochDelta_unguarded] at hguard
      omega
    | true =>
      by_contra hnot
      exact hheld rfl ⟨hguard, hnot⟩
  · exact ⟨lastEpoch, hepoch, .inr (.inr (.inr hstale))⟩

theorem admission_blind_pass {fvReset : Bool}
    (h : admission observation state (config.arm guardEnabled) = .pass fvReset) :
    admission observation state.blind (config.arm false) = .pass false := by
  obtain ⟨hepoch, hclock, -, hfresh, -⟩ := admission_pass_iff.mp h
  exact admission_pass_iff.mpr ⟨hepoch, hclock, le_rfl, hfresh, rfl⟩

theorem admission_blind_reconnect
    (h : admission observation state (config.arm guardEnabled) = .reconnect) :
    admission observation state.blind (config.arm false) = .reconnect := by
  obtain ⟨lastEpoch, hepoch, hclock, -, hlt⟩ := admission_reconnect_iff.mp h
  exact admission_reconnect_iff.mpr ⟨lastEpoch, hepoch, hclock, le_rfl, hlt⟩

/-- The row a blinded frame is put in. -/
theorem classified_blind {row : Row}
    (h : classifyRow observation state (config.arm guardEnabled) = .ok row) :
    classifyRow observation state.blind (config.arm false) =
      .ok (row.underlying (referencesWarm state config)) := by
  rw [classifyRow_blind observation state config guardEnabled, h]
  rfl

/-- **A frame of either arm, blinded**, is a frame of the unguarded arm. -/
theorem Moves.blind
    (h : Moves platform observation state (config.arm guardEnabled) decision nextState)
    (hheld : guardEnabled = true → ¬ HeldByGuard observation state config) :
    ∃ raw, decideRaw platform observation state.blind (config.arm false) =
      .ok (raw, nextState.blind) := by
  cases h with
  | rejected reason verdict =>
    obtain ⟨reason', hraw⟩ := decideRaw_rejected platform
      (rejected_blind hheld (isRejected_iff.mp verdict))
    exact ⟨_, hraw⟩
  | coldStart verdict =>
    have hcold : admission observation state.blind (config.arm false) = .coldStart := by
      have hepoch := admission_coldStart verdict
      have hblind : state.blind.lastBookSourceEpoch = none := hepoch
      unfold admission
      rw [hblind]
    rw [decideRaw_eq, hcold, accept_blind]
    exact ⟨_, rfl⟩
  | reconnect verdict =>
    rw [decideRaw_eq, admission_blind_reconnect verdict]
    dsimp only
    rw [← accept_blind observation state config guardEnabled true false]
    exact ⟨_, rfl⟩
  | reset fvReset verdict row =>
    rw [decideRaw_eq, admission_blind_pass verdict]
    dsimp only [reduceFrame]
    rw [classified_blind row, ← accept_blind observation state config guardEnabled false fvReset]
    exact ⟨_, rfl⟩
  | event fvReset reason verdict row =>
    have hrow : classifyRow observation state.blind (config.arm false) = .ok .E :=
      classified_blind row
    have hevent : EventTriggered observation state.blind (config.arm false) := by
      obtain ⟨hR, -⟩ | ⟨-, -, hevent⟩ | ⟨hbelow, -⟩ := classifyRow_cases hrow
      · cases hR
      · exact hevent
      · unfold rowBelowEvent at hbelow
        split_ifs at hbelow
    obtain ⟨reason', hreason⟩ := eventReason_ok false hevent
    rw [decideRaw_eq, admission_blind_pass verdict]
    dsimp only [reduceFrame]
    rw [hrow]
    refine ⟨decideKind .noQuote [reason'], bind_eq_ok.mpr ⟨_, rfl, bind_eq_ok.mpr ⟨_, hreason, ?_⟩⟩⟩
    rw [← accept_blind observation state config guardEnabled false fvReset]
    rfl
  | degraded fvReset reasons verdict row =>
    rw [decideRaw_eq, admission_blind_pass verdict]
    dsimp only [reduceFrame]
    rw [classified_blind row, accept_blind]
    exact ⟨_, rfl⟩
  | cooling fvReset verdict row =>
    rw [decideRaw_eq, admission_blind_pass verdict]
    dsimp only [reduceFrame]
    rw [classified_blind row, accept_blind]
    exact ⟨_, rfl⟩
  | healthy fvReset row decision verdict classified admits =>
    rw [decideRaw_eq, admission_blind_pass verdict]
    dsimp only [reduceFrame]
    rw [classified_blind classified, admitHealthy_blind, accept_blind]
    have hsound : (accept observation state.blind (config.arm false) false false).Sound
        (config.arm false) := by
      intro hpos
      exact absurd hpos (lt_irrefl 0)
    have hadmits : row.underlying (referencesWarm state config) = .W ∨
        row.underlying (referencesWarm state config) = .H := by
      rcases admits with rfl | rfl | rfl
      · cases referencesWarm state config
        · exact .inl rfl
        · exact .inr rfl
      · exact .inl rfl
      · exact .inr rfl
    obtain ⟨⟨raw, rawState⟩, hresult⟩ := applyHealthy_ok platform observation hsound
      (row.underlying (referencesWarm state config))
    have hstate := applyHealthy_state hresult
    refine ⟨raw, ?_⟩
    rw [← hstate, ← hresult]
    rcases hadmits with hW | hH
    · rw [hW]
      rfl
    · rw [hH]
      rfl

theorem DecideStep.blind {frame : Frame}
    (h : DecideStep platform (config.arm guardEnabled) sessionId state frame nextState)
    (hheld : guardEnabled = true → ¬ HeldByGuard frame.1 state config) (sessionId' : String) :
    ∃ decision, DecideStep platform (config.arm false) sessionId' state.blind (frame.1, decision)
      nextState.blind := by
  obtain ⟨raw, hmoves, -⟩ := h.moves
  obtain ⟨raw', hraw⟩ := hmoves.blind hheld
  exact ⟨stampIdentity platform frame.1 (config.arm false) (funnelCancelOnExposure frame.1 raw')
    state.blind nextState.blind sessionId', bind_eq_ok.mpr ⟨_, hraw, rfl⟩⟩

/-! ## Runs -/

/-- **A run of either arm, blinded**, is a run of the unguarded arm over the same observations. -/
theorem run_blind {frames : List Frame}
    (h : StrategyRun platform (config.arm guardEnabled) sessionId {} frames state)
    (hheld : ∀ (pre post : List Frame) (frame : Frame) (reached : StrategyState),
      frames = pre ++ frame :: post →
      StrategyRun platform (config.arm guardEnabled) sessionId {} pre reached →
      guardEnabled = true → ¬ HeldByGuard frame.1 reached config) (sessionId' : String) :
    ∃ blinded, blinded.map Prod.fst = frames.map Prod.fst ∧
      StrategyRun platform (config.arm false) sessionId' {} blinded state.blind := by
  refine h.projected StrategyState.blind Prod.fst Prod.fst
    fun pre frame post reached next hcut hpre hstep => ?_
  obtain ⟨decision, hblind⟩ := DecideStep.blind hstep (hheld pre post frame reached hcut hpre)
    sessionId'
  exact ⟨(frame.1, decision), rfl, hblind⟩

/-- After every observation of the list both arms have the same FV-independent fields. -/
def ArmsAgree (platform : Platform) (config : StrategyConfig) (sessionId sessionId' : String)
    (observations : List StrategyObservation) : Prop :=
  ∀ (guarded unguarded : List Frame) (state state' : StrategyState),
    guarded.map Prod.fst <+: observations → unguarded.map Prod.fst = guarded.map Prod.fst →
    StrategyRun platform (config.arm true) sessionId {} guarded state →
    StrategyRun platform (config.arm false) sessionId' {} unguarded state' →
    state.blind = state'.blind

/-- The guarded arm reaches an observation of the list that its guard holds alone. -/
def HoldsAlone (platform : Platform) (config : StrategyConfig) (sessionId : String)
    (observations : List StrategyObservation) : Prop :=
  ∃ (frames : List Frame) (observation : StrategyObservation) (state : StrategyState),
    frames.map Prod.fst ++ [observation] <+: observations ∧
    StrategyRun platform (config.arm true) sessionId {} frames state ∧
    HeldByGuard observation state config

/-- A frame the guard holds alone sets the arms apart. -/
theorem HeldByGuard.apart {guarded unguarded : List Frame} {state' : StrategyState}
    (hguarded : StrategyRun platform (config.arm true) sessionId {} guarded state)
    (hunguarded : StrategyRun platform (config.arm false) sessionId' {} unguarded state')
    (hsame : state.blind = state'.blind) (hheld : HeldByGuard observation state config) :
    ∃ decision decision' next',
      DecideStep platform (config.arm true) sessionId state (observation, decision) state ∧
      DecideStep platform (config.arm false) sessionId' state' (observation, decision') next' ∧
      state.blind ≠ next'.blind := by
  obtain ⟨hregressed, htaken⟩ := hheld
  have hrejected : Rejected observation state (config.arm true) := by
    by_contra haccepted
    have hforward := guardEpochDelta_nonneg (not_rejected_iff.mp haccepted) (.of_run hguarded)
    omega
  have htaken' : ¬ Rejected observation state' (config.arm false) := by
    intro hblind
    have hback : Rejected observation state'.blind (config.arm false) := hblind
    rw [← hsame] at hback
    exact htaken hback
  rw [not_rejected_iff] at htaken'
  obtain ⟨decision, hdecide, -⟩ := decideFrame_rejected platform sessionId hrejected
  obtain ⟨⟨decision', next'⟩, hdecide'⟩ := decideFrame_ok platform observation
    (StrategyState.Sound.run hunguarded .init) sessionId'
  refine ⟨decision, decision', next', hdecide, hdecide', fun hagain => ?_⟩
  -- the unguarded arm moved its position to the frame, which is above where both stood
  obtain ⟨raw, hmoves, -⟩ := decideFrame_cases hdecide'
  have hmoved : state'.position = some observation.position := by
    calc state'.position = state'.blind.position := rfl
      _ = next'.blind.position := by rw [← hsame, hagain]
      _ = next'.position := rfl
      _ = some observation.position := hmoves.position htaken'
  exact absurd (position_lt htaken' _ hmoved) (lt_irrefl _)

theorem ArmsAgree.not_holdsAlone {observations : List StrategyObservation}
    (h : ArmsAgree platform config sessionId sessionId' observations) :
    ¬ HoldsAlone platform config sessionId observations := by
  rintro ⟨guarded, observation, state, hprefix, hguarded, hheld⟩
  obtain ⟨unguarded, state', hsame, hunguarded⟩ := exists_run platform (config.arm false) sessionId'
    (guarded.map Prod.fst)
  have hearlier : guarded.map Prod.fst <+: observations :=
    (List.prefix_append _ _).trans hprefix
  have hstates := h guarded unguarded state state' hearlier hsame hguarded hunguarded
  obtain ⟨decision, decision', next', hstep, hstep', hapart⟩ :=
    hheld.apart hguarded hunguarded hstates
  refine hapart (h _ _ _ _ ?_ ?_ (.snoc hguarded hstep) (.snoc hunguarded hstep'))
  · simpa using hprefix
  · simp [hsame]

/-- **The arms train alike, exactly**: they agree on the FV-independent fields after every frame if
and only if the guard holds no frame alone. -/
theorem armsAgree_iff (platform : Platform) (config : StrategyConfig)
    (sessionId sessionId' : String) (observations : List StrategyObservation) :
    ArmsAgree platform config sessionId sessionId' observations ↔
      ¬ HoldsAlone platform config sessionId observations := by
  refine ⟨ArmsAgree.not_holdsAlone, ?_⟩
  intro hnone guarded unguarded state state' hprefix hsame hguarded hunguarded
  obtain ⟨blinded, hblinded, hrun⟩ := run_blind hguarded (by
    intro pre post frame reached hcut hpre _ hheld
    refine hnone ⟨pre, frame.1, reached, List.IsPrefix.trans ?_ hprefix, hpre, hheld⟩
    simp [hcut]) sessionId'
  obtain ⟨blinded', hblinded', hrun'⟩ := run_blind hunguarded
    (fun _ _ _ _ _ _ hguard => by cases hguard) sessionId'
  exact (StrategyRun.unique hrun hrun' (by rw [hblinded, hblinded', hsame])).2

theorem half_fair : 0 ≤ (1 / 2 : ℚ) ∧ (1 / 2 : ℚ) ≤ 1 := by norm_num

/-- A healthy frame with a fair value of the given source epoch. -/
def fvFrame (sequence asOfTs fvSourceEpoch : ℤ) : StrategyObservation :=
  { healthyFrame sequence asOfTs (48 / 100) (52 / 100) [] with
    guardFv := some
      { fv := 1 / 2, fvSourceTs := 0, fvRecvTs := asOfTs, fvSourceEpoch, messageId := none,
        proofStatus := .unavailableNoMessageId, fv_mem := half_fair, proof_honest := by simp }
    fvRecvTs_le := by simp [healthyFrame] }

/-- The second frame regresses the FV epoch: the guarded arm skips it, the other trains on it. -/
theorem arms_apart : ¬ ∀ (platform : Platform) (config : StrategyConfig)
    (sessionId sessionId' : String) (observations : List StrategyObservation),
    ArmsAgree platform config sessionId sessionId' observations := by
  intro h
  obtain ⟨frames, state, hobservations, hrun⟩ := exists_run flatPlatform
    ((promptConfig true).arm true) "" [fvFrame 0 0 1]
  have hfold := decideAll_of_run hrun
  rw [hobservations] at hfold
  have hstate : accept (fvFrame 0 0 1) {} ((promptConfig true).arm true) true false = state :=
    (Prod.ext_iff.mp (Except.ok.inj hfold)).2
  have hheld : HeldByGuard (fvFrame 1 1 0) state (promptConfig true) := by
    rw [← hstate]
    exact ⟨by decide +kernel, not_rejected_iff.mpr (by decide +kernel)⟩
  refine (h flatPlatform (promptConfig true) "" "" [fvFrame 0 0 1, fvFrame 1 1 0]).not_holdsAlone
    ⟨frames, fvFrame 1 1 0, state, ?_, hrun, hheld⟩
  rw [hobservations]
  exact List.prefix_rfl

end Veridex.MmStrategy
