import Veridex.MmStrategy.Runs

/-!
# The discipline of the watermark

Six watermarks decide which frames `decide` takes. Each is a high-water mark: it does not fall along
a run (`Moves.marksClimb`). The book epoch and the sequence make one mark, ordered lexicographically:
a reconnect raises the epoch and re-baselines the sequence, any other accepted frame raises the
sequence within its epoch (`decide_highWater`). So a frame that was accepted once is rejected however
late it comes again.

Results: `runs_watermark`.
-/

namespace Veridex.MmStrategy

open Veridex.Py Veridex.Lib

variable {platform : Platform} {config : StrategyConfig} {sessionId : String}
  {observation : StrategyObservation} {state nextState : StrategyState}
  {decision : StrategyDecision}

/-! ## Rejected frames -/

/-- The frame regresses the clock, the book epoch or the FV epoch, or is stale within its epoch. -/
def Rejected (observation : StrategyObservation) (state : StrategyState)
    (config : StrategyConfig) : Prop :=
  ∃ lastEpoch, state.lastBookSourceEpoch = some lastEpoch ∧
    (clockRegressed observation state = true ∨ observation.bookSourceEpoch < lastEpoch ∨
      guardEpochDelta observation state config < 0 ∨
      (observation.bookSourceEpoch = lastEpoch ∧ sequenceStale observation state = true))

theorem isRejected_iff : (admission observation state config).isRejected = true ↔
    Rejected observation state config := by
  unfold admission Rejected
  cases state.lastBookSourceEpoch with
  | none => simp [Admission.isRejected]
  | some lastEpoch =>
    simp only [Option.some.injEq, exists_eq_left']
    by_cases hclock : clockRegressed observation state = true
    · simp [hclock, Admission.isRejected]
    · by_cases hepoch : observation.bookSourceEpoch < lastEpoch ∨
          guardEpochDelta observation state config < 0
      · have hregress : observation.bookSourceEpoch < lastEpoch ∨
            guardEpochDelta observation state config < 0 ∨
            (observation.bookSourceEpoch = lastEpoch ∧ sequenceStale observation state = true) := by
          rcases hepoch with h | h
          · exact .inl h
          · exact .inr (.inl h)
        simp [hclock, hepoch, hregress, Admission.isRejected]
      · obtain ⟨hbook, hguard⟩ := not_or.mp hepoch
        by_cases hreconnect : lastEpoch < observation.bookSourceEpoch
        · have hother : observation.bookSourceEpoch ≠ lastEpoch := by omega
          simp [hclock, hbook, hguard, hreconnect, hother, Admission.isRejected]
        · have hsame : observation.bookSourceEpoch = lastEpoch := by omega
          by_cases hstale : sequenceStale observation state = true
          · simp [hclock, hguard, hsame, hstale, Admission.isRejected]
          · simp [hclock, hguard, hsame, hstale, Admission.isRejected]

theorem decideRaw_rejected (platform : Platform) (h : Rejected observation state config) :
    ∃ reason, decideRaw platform observation state config = .ok (hold [reason], state) := by
  rw [decideRaw_eq]
  rw [← isRejected_iff] at h
  cases hverdict : admission observation state config <;>
    first | exact ⟨_, rfl⟩ | (rw [hverdict] at h; cases h)

/-- A rejected frame is held, and the state stays. -/
theorem decideFrame_rejected (platform : Platform) (sessionId : String)
    (h : Rejected observation state config) :
    ∃ decision, decideFrame platform observation state config sessionId = .ok (decision, state) ∧
      decision.kind = .hold ∧ decision.intentPlan = [] := by
  obtain ⟨reason, hraw⟩ := decideRaw_rejected platform h
  refine ⟨_, by unfold decideFrame; rw [hraw]; rfl, rfl, rfl⟩

/-! ## The marks -/

theorem clock_le (h : (admission observation state config).isRejected = false)
    (hseeded : state.Seeded) : ∀ asOfTs ∈ state.lastAsOfTs, asOfTs ≤ observation.asOfTs := by
  intro asOfTs hasOfTs
  obtain rfl | ⟨epoch, ts, sequence, hepoch, -⟩ := hseeded
  · cases hasOfTs
  · by_contra hbefore
    have hclock : clockRegressed observation state = true := by
      unfold clockRegressed
      rw [hasOfTs]
      simpa using hbefore
    rw [isRejected_iff.mpr ⟨epoch, hepoch, .inl hclock⟩] at h
    cases h

theorem bookEpoch_le (h : (admission observation state config).isRejected = false) :
    ∀ epoch ∈ state.lastBookSourceEpoch, epoch ≤ observation.bookSourceEpoch := by
  intro epoch hepoch
  by_contra hbefore
  rw [isRejected_iff.mpr ⟨epoch, hepoch, .inr (.inl (not_le.mp hbefore))⟩] at h
  cases h

theorem guardEpochDelta_nonneg (h : (admission observation state config).isRejected = false)
    (hseeded : state.Seeded) : 0 ≤ guardEpochDelta observation state config := by
  obtain rfl | ⟨epoch, ts, sequence, hepoch, -⟩ := hseeded
  · unfold guardEpochDelta
    split
    · split
      · rename_i hwatermark
        cases hwatermark
      · exact le_rfl
    · exact le_rfl
  · by_contra hbefore
    rw [isRejected_iff.mpr ⟨epoch, hepoch, .inr (.inr (.inl (not_le.mp hbefore)))⟩] at h
    cases h

/-- The status generation is carried, or moves to that of a status that did not regress. -/
theorem statusWatermark_climbs (observation : StrategyObservation) (state : StrategyState)
    (config : StrategyConfig) :
    NeverDecreases state.lastMarketStatusEpoch (statusWatermark observation state config).1 ∧
      NeverDecreases state.lastMarketStatusRecvTs (statusWatermark observation state config).2 := by
  unfold statusWatermark
  by_cases hunknown : effectiveMarketStatus observation state config = .unknown
  · rw [if_pos hunknown]
    exact ⟨.refl _, .refl _⟩
  · rw [if_neg hunknown]
    have hknown : observation.marketStatus ≠ .unknown := by
      intro hraw
      exact hunknown (by unfold effectiveMarketStatus; rw [if_pos hraw])
    obtain ⟨epoch, hepoch⟩ := Option.ne_none_iff_exists'.mp
      (mt observation.statusEpoch_iff.mp hknown)
    obtain ⟨recvTs, hrecvTs⟩ := Option.ne_none_iff_exists'.mp
      (mt observation.statusRecvTs_iff.mp hknown)
    have hforward : statusRegressed observation state = false := by
      by_contra hregressed
      rw [Bool.not_eq_false] at hregressed
      exact hunknown (by simp [effectiveMarketStatus, hregressed])
    simp only [statusRegressed, hepoch, hrecvTs, Bool.or_eq_false_iff] at hforward
    dsimp only
    rw [hepoch, hrecvTs]
    refine ⟨neverDecreases_some fun last hlast => ?_, neverDecreases_some fun last hlast => ?_⟩
    · have hle := hforward.1
      rw [hlast] at hle
      simpa using hle
    · have hle := hforward.2
      rw [hlast] at hle
      simpa using hle

/-- The guard's generation is carried across a frame with no FV leg, and moves to that of one that
has it. -/
theorem nextGuardWatermark_climbs (hguard : config.guardEnabled = true)
    (hdelta : 0 ≤ guardEpochDelta observation state config) :
    NeverDecreases (state.guardWatermark.map GuardStateWatermark.fvSourceEpoch)
      ((nextGuardWatermark observation state config).map GuardStateWatermark.fvSourceEpoch) := by
  unfold nextGuardWatermark
  unfold guardEpochDelta at hdelta
  rw [if_pos hguard] at hdelta ⊢
  cases hfv : observation.guardFv with
  | none => exact .refl _
  | some guardFv =>
    refine neverDecreases_some fun epoch hepoch => ?_
    obtain ⟨watermark, hwatermark, rfl⟩ := Option.map_eq_some_iff.mp hepoch
    rw [hfv, hwatermark] at hdelta
    dsimp only at hdelta ⊢
    by_contra hbefore
    rw [if_pos (not_le.mp hbefore)] at hdelta
    omega

/-- None of the five marks falls from one state to a later one. -/
structure MarksClimb (config : StrategyConfig) (state later : StrategyState) : Prop where
  bookEpoch : NeverDecreases state.lastBookSourceEpoch later.lastBookSourceEpoch
  asOfTs : NeverDecreases state.lastAsOfTs later.lastAsOfTs
  statusEpoch : NeverDecreases state.lastMarketStatusEpoch later.lastMarketStatusEpoch
  statusRecvTs : NeverDecreases state.lastMarketStatusRecvTs later.lastMarketStatusRecvTs
  fvEpoch : config.guardEnabled = true →
    NeverDecreases (state.guardWatermark.map GuardStateWatermark.fvSourceEpoch)
      (later.guardWatermark.map GuardStateWatermark.fvSourceEpoch)

theorem MarksClimb.refl (state : StrategyState) : MarksClimb config state state :=
  ⟨.refl _, .refl _, .refl _, .refl _, fun _ => .refl _⟩

theorem MarksClimb.trans {first second third : StrategyState}
    (h₁ : MarksClimb config first second) (h₂ : MarksClimb config second third) :
    MarksClimb config first third where
  bookEpoch := h₁.bookEpoch.trans h₂.bookEpoch
  asOfTs := h₁.asOfTs.trans h₂.asOfTs
  statusEpoch := h₁.statusEpoch.trans h₂.statusEpoch
  statusRecvTs := h₁.statusRecvTs.trans h₂.statusRecvTs
  fvEpoch := fun hguard => (h₁.fvEpoch hguard).trans (h₂.fvEpoch hguard)

/-- One frame. -/
theorem Moves.marksClimb (h : Moves platform observation state config decision nextState)
    (hseeded : state.Seeded) : MarksClimb config state nextState := by
  obtain ⟨-, rfl⟩ | ⟨haccepted, hwatermark⟩ := h.accepted
  · exact .refl _
  · simp only [StrategyState.watermark, Watermark.mk.injEq] at hwatermark
    obtain ⟨-, hbook, hclock, hepoch, hrecvTs, hfv, -⟩ := hwatermark
    obtain ⟨hepochClimbs, hrecvClimbs⟩ := statusWatermark_climbs observation state config
    refine ⟨?_, ?_, ?_, ?_, fun hguard => ?_⟩
    · rw [hbook]
      exact neverDecreases_some (bookEpoch_le haccepted)
    · rw [hclock]
      exact neverDecreases_some (clock_le haccepted hseeded)
    · rwa [hepoch]
    · rwa [hrecvTs]
    · rw [hfv]
      exact nextGuardWatermark_climbs hguard (guardEpochDelta_nonneg haccepted hseeded)

/-- A run. -/
theorem StrategyState.Seeded.marksClimb {frames : List Frame}
    (hseeded : state.Seeded) (h : StrategyRun platform config sessionId state frames nextState) :
    MarksClimb config state nextState := by
  have hboth : nextState.Seeded ∧ MarksClimb config state nextState := by
    refine h.invariant (fun _ later => later.Seeded ∧ MarksClimb config state later)
      ⟨hseeded, .refl _⟩ fun _ _ _ _ ih hstep => ?_
    obtain ⟨raw, hmoves, -⟩ := DecideStep.moves hstep
    exact ⟨hmoves.seeded ih.1, ih.2.trans (hmoves.marksClimb ih.1)⟩
  exact hboth.2

/-! ## The book epoch and the sequence as one mark -/

/-- The generation and the sequence of a frame, the generation first. -/
def StrategyObservation.position (observation : StrategyObservation) : ℤ ×ₗ ℤ :=
  toLex (observation.bookSourceEpoch, observation.observationSequence)

/-- The position of the last accepted frame. -/
def StrategyState.position (state : StrategyState) : Option (ℤ ×ₗ ℤ) :=
  match state.lastBookSourceEpoch, state.lastObservationSequence with
  | some epoch, some sequence => some (toLex (epoch, sequence))
  | _, _ => none

/-- A frame of the same book epoch that is accepted has a later sequence. -/
theorem sequence_lt (h : (admission observation state config).isRejected = false)
    (hepoch : state.lastBookSourceEpoch = some observation.bookSourceEpoch) :
    ∀ sequence ∈ state.lastObservationSequence, sequence < observation.observationSequence := by
  intro sequence hsequence
  by_contra hbefore
  have hstale : sequenceStale observation state = true := by
    unfold sequenceStale
    rw [hsequence]
    simpa using hbefore
  rw [isRejected_iff.mpr ⟨_, hepoch, .inr (.inr (.inr ⟨rfl, hstale⟩))⟩] at h
  cases h

theorem position_lt (h : (admission observation state config).isRejected = false) :
    ∀ position ∈ state.position, position < observation.position := by
  intro position hposition
  unfold StrategyState.position at hposition
  split at hposition
  · rename_i epoch sequence hepoch hsequence
    obtain rfl := Option.some.inj hposition
    have hle := bookEpoch_le h epoch hepoch
    rw [StrategyObservation.position, Prod.Lex.toLex_lt_toLex]
    by_cases hsame : epoch = observation.bookSourceEpoch
    · exact .inr ⟨hsame, sequence_lt h (hsame ▸ hepoch) sequence hsequence⟩
    · exact .inl (lt_of_le_of_ne hle hsame)
  · cases hposition

theorem Moves.watermark_of_accepted
    (h : Moves platform observation state config decision nextState)
    (haccepted : (admission observation state config).isRejected = false) :
    nextState.watermark = (advanceWatermark observation state config).watermark := by
  obtain ⟨hrejected, -⟩ | ⟨-, hwatermark⟩ := h.accepted
  · rw [haccepted] at hrejected
    cases hrejected
  · exact hwatermark

/-- An accepted frame is the last position. -/
theorem Moves.position (h : Moves platform observation state config decision nextState)
    (haccepted : (admission observation state config).isRejected = false) :
    nextState.position = some observation.position := by
  have hwatermark := h.watermark_of_accepted haccepted
  simp only [StrategyState.watermark, Watermark.mk.injEq] at hwatermark
  unfold StrategyState.position
  rw [hwatermark.2.1, hwatermark.1]
  rfl

/-- **`decide` takes a frame above its mark only.** -/
theorem decide_highWater (platform : Platform) (config : StrategyConfig) (sessionId : String) :
    HighWater (DecideStep platform config sessionId) StrategyState.position
      fun frame => frame.1.position := by
  intro state frame nextState hstep
  obtain ⟨raw, hmoves, -⟩ := DecideStep.moves hstep
  obtain ⟨-, hsame⟩ | ⟨haccepted, -⟩ := hmoves.accepted
  · exact .inl hsame
  · exact .inr ⟨hmoves.position haccepted, position_lt haccepted⟩

/-! ## The discipline -/

/-- What the watermark makes of one more frame at a reached state. -/
structure FrameLaws (platform : Platform) (config : StrategyConfig) (sessionId : String)
    (state : StrategyState) : Prop where
  /-- A rejected frame leaves the state, with a HOLD. -/
  rejected : ∀ observation, Rejected observation state config →
    ∃ decision, decideFrame platform observation state config sessionId = .ok (decision, state) ∧
      decision.kind = .hold ∧ decision.intentPlan = []
  /-- Any other frame is accepted, and the next state has its epoch, its clock and its sequence. -/
  accepted : ∀ observation, ¬ Rejected observation state config →
    ∃ decision nextState,
      decideFrame platform observation state config sessionId = .ok (decision, nextState) ∧
      nextState.lastBookSourceEpoch = some observation.bookSourceEpoch ∧
      nextState.lastAsOfTs = some observation.asOfTs ∧
      nextState.lastObservationSequence = some observation.observationSequence
  /-- Within one book epoch an accepted frame raises the sequence. -/
  sequenceClimbs : ∀ observation, ¬ Rejected observation state config →
    state.lastBookSourceEpoch = some observation.bookSourceEpoch →
    ∃ sequence, state.lastObservationSequence = some sequence ∧
      sequence < observation.observationSequence
  /-- A reconnect is not rejected, whatever its sequence. -/
  reconnect : ∀ observation lastEpoch, state.lastBookSourceEpoch = some lastEpoch →
    lastEpoch < observation.bookSourceEpoch → clockRegressed observation state = false →
    0 ≤ guardEpochDelta observation state config → ¬ Rejected observation state config

theorem not_rejected_iff : ¬ Rejected observation state config ↔
    (admission observation state config).isRejected = false := by
  rw [← isRejected_iff, Bool.not_eq_true]

theorem FrameLaws.of_reached (hseeded : state.Seeded) (hsound : state.Sound config) :
    FrameLaws platform config sessionId state where
  rejected := fun _ => decideFrame_rejected platform sessionId
  accepted := by
    intro observation haccepted
    rw [not_rejected_iff] at haccepted
    obtain ⟨⟨decision, nextState⟩, hdecide⟩ := decideFrame_ok platform observation hsound
      sessionId
    obtain ⟨raw, hmoves, -⟩ := decideFrame_cases hdecide
    have hwatermark := hmoves.watermark_of_accepted haccepted
    simp only [StrategyState.watermark, Watermark.mk.injEq] at hwatermark
    exact ⟨decision, nextState, hdecide, hwatermark.2.1, hwatermark.2.2.1, hwatermark.1⟩
  sequenceClimbs := by
    intro observation haccepted hepoch
    rw [not_rejected_iff] at haccepted
    obtain rfl | ⟨-, -, sequence, -, -, hsequence⟩ := hseeded
    · cases hepoch
    · exact ⟨sequence, hsequence, sequence_lt haccepted hepoch sequence hsequence⟩
  reconnect := by
    rintro observation lastEpoch hlast hlt hclock hguard ⟨epoch, hepoch, hcause⟩
    obtain rfl := Option.some.inj (hlast.symm.trans hepoch)
    rcases hcause with hregressed | hbefore | hdelta | ⟨hsame, -⟩
    · rw [hclock] at hregressed
      cases hregressed
    · omega
    · omega
    · omega

/-- **The watermark discipline**: from the state before a frame of a run no mark falls; there every
observation obeys the laws; and the frame, if it was accepted, leaves any later state when it is
delivered again. -/
theorem runs_watermark {before after : List Frame} {frame : Frame} {later : StrategyState}
    (h : StrategyRun platform config sessionId {} (before ++ frame :: after) later) :
    ∃ state, StrategyRun platform config sessionId {} before state ∧
      MarksClimb config state later ∧ FrameLaws platform config sessionId state ∧
      (¬ Rejected frame.1 state config → ∃ decision,
        decideFrame platform frame.1 later config sessionId = .ok (decision, later)) := by
  obtain ⟨state, nextState, hbefore, hstep, hafter⟩ := h.step_at
  have hseeded : state.Seeded := .of_run hbefore
  have hsound : state.Sound config := StrategyState.Sound.run hbefore .init
  refine ⟨state, hbefore, hseeded.marksClimb (.cons hstep hafter), .of_reached hseeded hsound,
    fun haccepted => ?_⟩
  have hlater : later.Sound config := StrategyState.Sound.run h .init
  obtain ⟨⟨decision, again⟩, hdecide⟩ := decideFrame_ok platform frame.1 hlater sessionId
  have hagain : DecideStep platform config sessionId later (frame.1, decision) again := hdecide
  obtain ⟨raw, hmoves, -⟩ := hstep.moves
  have hreached := hmoves.position (not_rejected_iff.mp haccepted)
  obtain rfl := (decide_highWater platform config sessionId).redelivered hreached hafter hagain le_rfl
  exact ⟨decision, hdecide⟩

/-- A frame of the next book epoch. -/
def reconnectFrame (sequence asOfTs : ℤ) : StrategyObservation :=
  { healthyFrame sequence asOfTs (48 / 100) (52 / 100) [] with bookSourceEpoch := 1 }

/-- A reconnect at a lower sequence is accepted, and delivered again after its successor it changes
nothing. -/
theorem runs_watermark_reconnect : ∃ (frame : Frame) (state later : StrategyState),
    frame.1 = reconnectFrame 0 1 ∧ ¬ Rejected frame.1 state (promptConfig true) ∧
    MarksClimb (promptConfig true) state later ∧ ∃ decision,
      decideFrame flatPlatform frame.1 later (promptConfig true) "" = .ok (decision, later) := by
  have hkinds : (decideAll flatPlatform (promptConfig true) "" {}
      [healthyFrame 7 0 (48 / 100) (52 / 100) [], reconnectFrame 0 1, reconnectFrame 1 2]).map
      (fun result => result.1.map StrategyDecision.kind) = .ok [.hold, .noQuote, .noQuote] := by
    decide +kernel
  obtain ⟨frames, later, hobservations, hviews, hrun⟩ := run_of_view hkinds
  obtain ⟨first, frame, third, rfl⟩ := List.length_eq_three.mp
    (by simpa using congrArg List.length hviews)
  simp only [List.map_cons, List.map_nil, List.cons.injEq, and_true] at hobservations hviews
  have hcut : StrategyRun flatPlatform (promptConfig true) "" {} ([first] ++ frame :: [third])
      later := hrun
  obtain ⟨state, hbefore, hclimb, hlaws, hagain⟩ := runs_watermark hcut
  obtain ⟨state', nextState, hbefore', hstep, -⟩ := hcut.step_at
  obtain rfl := (StrategyRun.unique hbefore hbefore' rfl).2
  have haccepted : ¬ Rejected frame.1 state (promptConfig true) := by
    intro hrejected
    obtain ⟨decision, hdecide, hhold, -⟩ := hlaws.rejected frame.1 hrejected
    have hdecided : frame.2 = decision :=
      (Prod.ext_iff.mp (Except.ok.inj (hstep.symm.trans hdecide))).1
    rw [hdecided, hhold] at hviews
    exact absurd hviews.2.1 (by decide)
  exact ⟨frame, state, later, hobservations.2.1, haccepted, hclimb, hagain haccepted⟩

end Veridex.MmStrategy
