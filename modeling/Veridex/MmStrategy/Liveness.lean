import Veridex.MmStrategy.Books
import Veridex.MmStrategy.EventDwell

/-!
# Back to row H

A `SteadyStream` goes on from a state over one healthy two-sided book, accepted frame by frame, with
no tick-regime, phase or suspension change. Whether the strategy gets back to row H on it is decided
at its outset (`Outset`): a first frame that is a cold start or ends a gap resets the references, and
the others find them as they are. From there the frames wait for the cooldown (row C), train the
references up (row W) and reach row H, unless a venue gate fires against the references then. If one
does, they are frozen, and every later frame is in row E (`Continues.tripped`).

Results: `stream_resumes_iff`.
-/

namespace Veridex.MmStrategy

open Veridex.Py Veridex.Lib

/-- A stream that goes on from a state over one healthy book. -/
structure SteadyStream (config : StrategyConfig) (state : StrategyState) (book : Book)
    (stream : ℕ → StrategyObservation) : Prop where
  shows : ∀ k, Shows (stream k) book
  bookOk : ∀ k, (stream k).bookStatus = .ok
  fresh : ∀ k, bookIsStale (stream k) config = false
  aligned : ∀ k, legIsSkewed (stream k) config = false
  deep : config.minTopDepth.le (.fin book.depth) = true
  levelled : (config.minLevelCount : ℤ) ≤ book.levels
  -- nothing changes along the stream, and the clock and the sequence advance
  sameTickRegime : ∀ k, (stream k).tickRegimeChanged = false
  samePhase : ∀ k, (stream k).phase = (stream 0).phase
  sameSuspension : ∀ k, (stream k).suspended = (stream 0).suspended
  sameEpoch : ∀ k, (stream k).bookSourceEpoch = (stream 0).bookSourceEpoch
  clock : ∀ k, (stream k).asOfTs + 1 ≤ (stream (k + 1)).asOfTs
  sequence : ∀ k, (stream k).observationSequence < (stream (k + 1)).observationSequence
  -- nor from the state to its first frame
  fromPhase : ∀ phase ∈ state.lastPhase, (stream 0).phase = phase
  fromSuspension : ∀ suspended ∈ state.lastSuspended, (stream 0).suspended = suspended
  fromEpoch : ∀ epoch ∈ state.lastBookSourceEpoch, (stream 0).bookSourceEpoch = epoch
  fromClock : ∀ asOfTs ∈ state.lastAsOfTs, asOfTs ≤ (stream 0).asOfTs
  fromSequence : ∀ sequence ∈ state.lastObservationSequence,
    sequence < (stream 0).observationSequence

/-- The states of a stream that `decide` folds. On the states it reaches `decide` raises nothing
(`continues_streamStates`). -/
def streamStates (platform : Platform) (config : StrategyConfig) (sessionId : String)
    (state : StrategyState) (stream : ℕ → StrategyObservation) : ℕ → StrategyState
  | 0 => state
  | k + 1 =>
    let before := streamStates platform config sessionId state stream k
    match decideFrame platform (stream k) before config sessionId with
    | .ok (_, nextState) => nextState
    | .error _ => before

/-- The states of a steady stream with the guard off, from a reached one. -/
structure Continues (platform : Platform) (config : StrategyConfig) (sessionId : String)
    (book : Book) (stream : ℕ → StrategyObservation) (states : ℕ → StrategyState) : Prop where
  reached : ∃ before, StrategyRun platform config sessionId {} before (states 0)
  guardOff : config.guardEnabled = false
  steady : SteadyStream config (states 0) book stream
  follows : ∀ k, ∃ decision,
    DecideStep platform config sessionId (states k) (stream k, decision) (states (k + 1))

/-- Frame `k` passes the watermark layer, and is in row H. -/
def Healthy (config : StrategyConfig) (stream : ℕ → StrategyObservation)
    (states : ℕ → StrategyState) (k : ℕ) : Prop :=
  (∃ fvReset, admission (stream k) (states k) config = .pass fvReset) ∧
    classifyRow (stream k) (states k) config = .ok .H

/-- Frame `k` passes the watermark layer, and resets nothing. -/
structure Settled (config : StrategyConfig) (stream : ℕ → StrategyObservation)
    (states : ℕ → StrategyState) (k : ℕ) : Prop where
  passes : admission (stream k) (states k) config = .pass false
  noReset : resetTriggered (stream k) (states k) = false

/-- Where the frames of a stream that reset nothing begin, and the accumulators and the cooldown they
find. -/
structure Outset where
  first : ℕ
  venue : VenueAccumulators
  deadline : Option ℤ

/-- A cold start clears the accumulators, and the end of a gap resets them and anchors a cooldown.
Any other first frame finds them as the state has them. -/
def outset (config : StrategyConfig) (book : Book) (stream : ℕ → StrategyObservation)
    (state : StrategyState) : Outset :=
  match state.lastBookSourceEpoch, state.lastBookInGap with
  | none, _ => ⟨1, ⟨none, none, [], []⟩, state.eventCooldownUntilTs⟩
  | some _, some true =>
    ⟨1, ⟨some book.mid, some (stream 0).asOfTs, [], []⟩, some (cooldownDeadline (stream 0) config)⟩
  | some _, _ => ⟨0, state.venue, state.eventCooldownUntilTs⟩

/-- What the outset says: the frames from `first` on are settled and find its accumulators and its
cooldown, those before are not in row H, and a stream that begins with a reset lacks every sample. -/
structure Opens (config : StrategyConfig) (stream : ℕ → StrategyObservation)
    (states : ℕ → StrategyState) (o : Outset) : Prop where
  settled : ∀ k, o.first ≤ k → Settled config stream states k
  venue : (states o.first).venue = o.venue
  deadline : (states o.first).eventCooldownUntilTs = o.deadline
  before : ∀ k < o.first, ¬ Healthy config stream states k
  reset : o.first = 0 ∧ o.deadline = (states 0).eventCooldownUntilTs ∨
    o.first = 1 ∧ o.venue.missing config = config.refMinSamples

/-- Frame `c` is the first from `first` on to read at the deadline or past it. -/
structure FirstPast (stream : ℕ → StrategyObservation) (deadline : Option ℤ) (first c : ℕ) :
    Prop where
  starts : first ≤ c
  past : ∀ until_ ∈ deadline, until_ ≤ (stream c).asOfTs
  waits : ∀ k, first ≤ k → k < c → ∃ until_ ∈ deadline, (stream k).asOfTs < until_

variable {platform : Platform} {config : StrategyConfig} {sessionId : String} {book : Book}
  {stream : ℕ → StrategyObservation} {states : ℕ → StrategyState}

theorem warm_of_row_H {observation : StrategyObservation} {state : StrategyState}
    (h : classifyRow observation state config = .ok .H) : referencesWarm state config = true := by
  obtain ⟨hR, -⟩ | ⟨hE, -⟩ | ⟨hbelow, -⟩ := classifyRow_cases h
  · cases hR
  · cases hE
  · unfold rowBelowEvent at hbelow
    split_ifs at hbelow with hstale hcool hfv hcold
    simpa using hcold

theorem not_healthy_of_row {k : ℕ} {row : Row}
    (hrow : classifyRow (stream k) (states k) config = .ok row) (hother : row ≠ .H) :
    ¬ Healthy config stream states k := by
  rintro ⟨-, hH⟩
  exact hother (Except.ok.inj (hrow.symm.trans hH))

/-! ## Every frame is accepted -/

namespace Continues

theorem moves (h : Continues platform config sessionId book stream states) (k : ℕ) :
    ∃ raw, Moves platform (stream k) (states k) config raw (states (k + 1)) := by
  obtain ⟨decision, hstep⟩ := h.follows k
  obtain ⟨raw, hmoves, -⟩ := hstep.moves
  exact ⟨raw, hmoves⟩

theorem guardEpochDelta_eq (h : Continues platform config sessionId book stream states)
    (observation : StrategyObservation) (state : StrategyState) :
    guardEpochDelta observation state config = 0 := by
  simp [guardEpochDelta, h.guardOff]

/-- After a first accepted frame the stream goes on within its book epoch. -/
theorem passes_zero (h : Continues platform config sessionId book stream states) {lastEpoch : ℤ}
    (hepoch : (states 0).lastBookSourceEpoch = some lastEpoch) :
    admission (stream 0) (states 0) config = .pass false := by
  refine admission_pass_iff.mpr ⟨?_, ?_, ?_, ?_, ?_⟩
  · rw [hepoch, h.steady.fromEpoch lastEpoch hepoch]
  · unfold clockRegressed
    rw [Option.any_eq_false]
    intro asOfTs hasOfTs
    have hfrom := h.steady.fromClock asOfTs hasOfTs
    simpa using hfrom
  · rw [h.guardEpochDelta_eq]
  · unfold sequenceStale
    rw [Option.any_eq_false]
    intro sequence hsequence
    have hfrom := h.steady.fromSequence sequence hsequence
    simpa using hfrom
  · simp [h.guardEpochDelta_eq]

theorem accepted_zero (h : Continues platform config sessionId book stream states) :
    (admission (stream 0) (states 0) config).isRejected = false := by
  cases hepoch : (states 0).lastBookSourceEpoch with
  | none =>
    rw [← not_rejected_iff]
    rintro ⟨lastEpoch, hlast, -⟩
    rw [hepoch] at hlast
    cases hlast
  | some lastEpoch =>
    rw [h.passes_zero hepoch]
    rfl

/-- After an accepted frame the next one is settled. -/
theorem settled_of_accepted (h : Continues platform config sessionId book stream states) {k : ℕ}
    (haccepted : (admission (stream k) (states k) config).isRejected = false) :
    Settled config stream states (k + 1) := by
  obtain ⟨raw, hmoves⟩ := h.moves k
  have hwatermark := hmoves.watermark_of_accepted haccepted
  simp only [StrategyState.watermark, Watermark.mk.injEq] at hwatermark
  obtain ⟨hsequence, hepoch, hclock, -, -, -, hphase, hsuspended, hgap⟩ := hwatermark
  have hsequences := h.steady.sequence k
  have hclocks := h.steady.clock k
  have hphases := (h.steady.samePhase (k + 1)).trans (h.steady.samePhase k).symm
  have hsuspensions := (h.steady.sameSuspension (k + 1)).trans (h.steady.sameSuspension k).symm
  have hepochs := (h.steady.sameEpoch (k + 1)).trans (h.steady.sameEpoch k).symm
  refine ⟨admission_pass_iff.mpr ⟨?_, ?_, ?_, ?_, ?_⟩, ?_⟩
  · rw [hepoch, hepochs]
    rfl
  · unfold clockRegressed
    rw [hclock]
    simp only [advanceWatermark, Option.any_some, decide_eq_false_iff_not]
    omega
  · rw [h.guardEpochDelta_eq]
  · unfold sequenceStale
    rw [hsequence]
    simp only [advanceWatermark, Option.any_some, decide_eq_false_iff_not]
    omega
  · simp [h.guardEpochDelta_eq]
  · have hbook : bookInGap (stream k) = false := bookInGap_eq_false.mpr (h.steady.bookOk k)
    unfold bookInGap at hbook
    simp only [resetTriggered, h.steady.sameTickRegime, phaseTransition, suspensionReopen,
      gapEpisodeEnd, hphase, hsuspended, hgap, advanceWatermark, hphases, hsuspensions, hbook]
    cases (stream k).suspended <;> simp

theorem accepted (h : Continues platform config sessionId book stream states) (k : ℕ) :
    (admission (stream k) (states k) config).isRejected = false := by
  induction k with
  | zero => exact h.accepted_zero
  | succ k ih =>
    rw [(h.settled_of_accepted ih).passes]
    rfl

theorem settled_succ (h : Continues platform config sessionId book stream states) (k : ℕ) :
    Settled config stream states (k + 1) :=
  h.settled_of_accepted (h.accepted k)

/-! ## The row of a settled frame -/

/-- The gates of a settled frame fire against its accumulators. -/
theorem trips_iff (h : Continues platform config sessionId book stream states) (k : ℕ) :
    Trips (stream 0) config (states k).venue ↔
      ∃ reason, warmVenueEvent (stream k) (states k) config = .ok (some reason) :=
  Veridex.MmStrategy.trips_iff (h.steady.shows k) (h.steady.shows 0)

theorem row_tripped (h : Continues platform config sessionId book stream states) {k : ℕ}
    (hsettled : Settled config stream states k) (htrips : Trips (stream 0) config (states k).venue) :
    classifyRow (stream k) (states k) config = .ok .E := by
  obtain ⟨reason, hreason⟩ := (h.trips_iff k).mp htrips
  have hgap : bookInGap (stream k) = false := bookInGap_eq_false.mpr (h.steady.bookOk k)
  simp [classifyRow, hsettled.noReset, hgap, hreason, bind, Except.bind, pure, Except.pure]

theorem row_calm (h : Continues platform config sessionId book stream states) {k : ℕ}
    (hsettled : Settled config stream states k)
    (hcalm : ¬ Trips (stream 0) config (states k).venue) :
    classifyRow (stream k) (states k) config =
      .ok (if cooldownActive (stream k) (states k) = true then .C
        else if referencesWarm (states k) config = true then .H else .W) := by
  obtain ⟨reason, hreason⟩ := warmVenueEvent_ok (stream k) (states k) config
  have hgap : bookInGap (stream k) = false := bookInGap_eq_false.mpr (h.steady.bookOk k)
  cases reason with
  | some reason => exact absurd ((h.trips_iff k).mpr ⟨reason, hreason⟩) hcalm
  | none =>
    have hbelow : rowBelowEvent (stream k) (states k) config =
        if cooldownActive (stream k) (states k) = true then .C
        else if referencesWarm (states k) config = true then .H else .W := by
      unfold rowBelowEvent
      rw [h.steady.fresh, h.steady.aligned, h.guardEpochDelta_eq]
      by_cases hcool : cooldownActive (stream k) (states k) = true
      · simp [hcool]
      · by_cases hwarm : referencesWarm (states k) config = true
        · simp [hcool, hwarm]
        · simp [hcool, hwarm]
    simp [classifyRow, hsettled.noReset, hgap, hreason, hbelow, bind, Except.bind, pure, Except.pure]

/-! ## One settled frame -/

/-- A gate that fires freezes the accumulators. -/
theorem step_tripped (h : Continues platform config sessionId book stream states) {k : ℕ}
    (hsettled : Settled config stream states k) (htrips : Trips (stream 0) config (states k).venue) :
    ¬ Healthy config stream states k ∧ (states (k + 1)).venue = (states k).venue := by
  have hrow := h.row_tripped hsettled htrips
  obtain ⟨raw, hmoves⟩ := h.moves k
  refine ⟨not_healthy_of_row hrow (by decide), ?_⟩
  obtain ⟨hR, -⟩ | ⟨-, hvenue⟩ | ⟨hDC, -⟩ | ⟨hFWH, -⟩ := hmoves.venue_cases hsettled.passes hrow
  · cases hR
  · exact hvenue
  · simp at hDC
  · simp at hFWH

/-- Under the cooldown nothing moves. -/
theorem step_waiting (h : Continues platform config sessionId book stream states) {k : ℕ}
    (hsettled : Settled config stream states k)
    (hcalm : ¬ Trips (stream 0) config (states k).venue)
    (hcool : cooldownActive (stream k) (states k) = true) :
    ¬ Healthy config stream states k ∧ (states (k + 1)).venue = (states k).venue ∧
      (states (k + 1)).eventCooldownUntilTs = (states k).eventCooldownUntilTs := by
  have hrow := h.row_calm hsettled hcalm
  rw [if_pos hcool] at hrow
  obtain ⟨raw, hmoves⟩ := h.moves k
  refine ⟨not_healthy_of_row hrow (by decide), ?_⟩
  obtain ⟨hR, -⟩ | ⟨hE, -⟩ | ⟨-, hkept⟩ | ⟨hFWH, -⟩ := hmoves.venue_cases hsettled.passes hrow
  · cases hR
  · cases hE
  · exact hkept
  · simp at hFWH

/-- A cold frame past the cooldown trains its book. -/
theorem step_warming (h : Continues platform config sessionId book stream states) {k : ℕ}
    (hsettled : Settled config stream states k) (hcold : ¬ (states k).venue.Warm config)
    (hcool : cooldownActive (stream k) (states k) = false) :
    ¬ Healthy config stream states k ∧ (states (k + 1)).eventCooldownUntilTs = none ∧
      (states (k + 1)).venue =
        (states k).venue.train platform.halfPow config book (stream k).asOfTs := by
  have hcalm : ¬ Trips (stream 0) config (states k).venue := fun htrips => hcold htrips.warm
  have hrow := h.row_calm hsettled hcalm
  rw [hcool, if_neg Bool.false_ne_true, if_neg (mt referencesWarm_iff_venue.mp hcold)] at hrow
  obtain ⟨raw, hmoves⟩ := h.moves k
  refine ⟨not_healthy_of_row hrow (by decide), ?_⟩
  obtain ⟨hR, -⟩ | ⟨hE, -⟩ | ⟨hDC, -⟩ | ⟨-, hcleared, hvenue⟩ :=
    hmoves.venue_cases hsettled.passes hrow
  · cases hR
  · cases hE
  · simp at hDC
  · refine ⟨hcleared, ?_⟩
    rw [hvenue, venue_admitVenueUpdates (h.steady.shows k), accept_venue]

theorem step_healthy (h : Continues platform config sessionId book stream states) {k : ℕ}
    (hsettled : Settled config stream states k)
    (hcalm : ¬ Trips (stream 0) config (states k).venue)
    (hcool : cooldownActive (stream k) (states k) = false)
    (hwarm : (states k).venue.Warm config) : Healthy config stream states k := by
  refine ⟨⟨_, hsettled.passes⟩, ?_⟩
  rw [h.row_calm hsettled hcalm, hcool, if_neg Bool.false_ne_true,
    if_pos (referencesWarm_iff_venue.mpr hwarm)]

/-! ## The phases of a stream -/

/-- **Tripped for good**: a gate that fires once fires on every later frame. -/
theorem tripped (h : Continues platform config sessionId book stream states) {first : ℕ}
    (hsettled : ∀ k, first ≤ k → Settled config stream states k)
    (htrips : Trips (stream 0) config (states first).venue) {k : ℕ} (hk : first ≤ k) :
    ¬ Healthy config stream states k := by
  have hfrozen : (states k).venue = (states first).venue := by
    induction k, hk using Nat.le_induction with
    | base => rfl
    | succ k hk ih =>
      rw [(h.step_tripped (hsettled k hk) (ih ▸ htrips)).2, ih]
  exact (h.step_tripped (hsettled k hk) (hfrozen ▸ htrips)).1

/-- **Row C** until the first frame past the deadline. -/
theorem waiting (h : Continues platform config sessionId book stream states) {first c : ℕ}
    (hsettled : ∀ k, first ≤ k → Settled config stream states k)
    (hcalm : ¬ Trips (stream 0) config (states first).venue)
    (hc : FirstPast stream (states first).eventCooldownUntilTs first c) {k : ℕ} (hk : first ≤ k)
    (hkc : k ≤ c) :
    (states k).venue = (states first).venue ∧
      (states k).eventCooldownUntilTs = (states first).eventCooldownUntilTs ∧
      ∀ j, first ≤ j → j < k → ¬ Healthy config stream states j := by
  induction k, hk using Nat.le_induction with
  | base => exact ⟨rfl, rfl, fun j hj hlt => by omega⟩
  | succ k hk ih =>
    obtain ⟨hvenue, hcooldown, hnone⟩ := ih (by omega)
    obtain ⟨deadline, hdeadline, hlt⟩ := hc.waits k hk (by omega)
    have hcool : cooldownActive (stream k) (states k) = true := by
      unfold cooldownActive
      rw [hcooldown, hdeadline]
      simpa using hlt
    obtain ⟨hrow, hvenue', hcooldown'⟩ := h.step_waiting (hsettled k hk) (hvenue ▸ hcalm) hcool
    refine ⟨hvenue'.trans hvenue, hcooldown'.trans hcooldown, fun j hj hlt => ?_⟩
    by_cases hlast : j = k
    · exact hlast ▸ hrow
    · exact hnone j hj (by omega)

/-- **Row W** from there, until the references are warm. -/
theorem training (h : Continues platform config sessionId book stream states) {c : ℕ}
    (hsettled : ∀ k, c ≤ k → Settled config stream states k)
    (hcool : cooldownActive (stream c) (states c) = false)
    (hspread : config.refMinSamples ≤ config.rollingSpreadWindow)
    (hdepth : config.refMinSamples ≤ config.rollingDepthWindow) {count : ℕ}
    (hcount : count ≤ (states c).venue.missing config) :
    (states (c + count)).venue = (states c).venue.trained platform.halfPow config book
        (fun k => (stream k).asOfTs) c count ∧
      cooldownActive (stream (c + count)) (states (c + count)) = false ∧
      ∀ j, c ≤ j → j < c + count → ¬ Healthy config stream states j := by
  induction count with
  | zero => exact ⟨rfl, hcool, fun j hj hlt => by omega⟩
  | succ count ih =>
    obtain ⟨hvenue, hcool', hnone⟩ := ih (by omega)
    have hcold : ¬ (states (c + count)).venue.Warm config := by
      rw [hvenue, trained_warm_iff _ _ _ _ _ _ _ hspread hdepth]
      omega
    obtain ⟨hrow, hcleared, htrained⟩ := h.step_warming (hsettled _ (by omega)) hcold hcool'
    refine ⟨?_, ?_, fun j hj hlt => ?_⟩
    · rw [← Nat.add_assoc, htrained, hvenue]
      rfl
    · unfold cooldownActive
      rw [← Nat.add_assoc, hcleared]
      rfl
    · by_cases hlast : j = c + count
      · exact hlast ▸ hrow
      · exact hnone j hj (by omega)

/-! ## The outset of a stream -/

theorem settled_from_one (h : Continues platform config sessionId book stream states) :
    ∀ k, 1 ≤ k → Settled config stream states k := by
  intro k hk
  obtain ⟨k, rfl⟩ := Nat.exists_eq_add_of_le' hk
  exact h.settled_succ k

/-- A cold start clears the accumulators. -/
theorem opens_cold (h : Continues platform config sessionId book stream states)
    (hcold : (states 0).lastBookSourceEpoch = none) :
    Opens config stream states ⟨1, ⟨none, none, [], []⟩, (states 0).eventCooldownUntilTs⟩ := by
  have hverdict : admission (stream 0) (states 0) config = .coldStart := by
    unfold admission
    rw [hcold]
  have hnext : states 1 = accept (stream 0) (states 0) config true false := by
    obtain ⟨raw, hmoves⟩ := h.moves 0
    exact hmoves.of_coldStart hverdict
  refine ⟨h.settled_from_one, ?_, ?_, ?_, .inr ⟨rfl, ?_⟩⟩
  · rw [hnext]
    rfl
  · rw [hnext]
    simp
  · intro k hk
    obtain rfl : k = 0 := by simpa using hk
    rintro ⟨⟨fvReset, hpass⟩, -⟩
    rw [hverdict] at hpass
    cases hpass
  · have hpos := config.refMinSamples_pos
    simp [VenueAccumulators.missing]
    omega

/-- The end of a gap resets the accumulators from the frame's own mid, and anchors a cooldown. -/
theorem opens_gap (h : Continues platform config sessionId book stream states) {lastEpoch : ℤ}
    (hepoch : (states 0).lastBookSourceEpoch = some lastEpoch)
    (hgap : (states 0).lastBookInGap = some true) :
    Opens config stream states ⟨1, ⟨some book.mid, some (stream 0).asOfTs, [], []⟩,
      some (cooldownDeadline (stream 0) config)⟩ := by
  have hrow : classifyRow (stream 0) (states 0) config = .ok .R := by
    have hclosed : bookInGap (stream 0) = false := bookInGap_eq_false.mpr (h.steady.bookOk 0)
    have hreset : resetTriggered (stream 0) (states 0) = true := by
      simp [resetTriggered, gapEpisodeEnd, hgap, hclosed]
    unfold classifyRow
    rw [if_pos hreset]
    rfl
  obtain ⟨raw, hmoves⟩ := h.moves 0
  obtain ⟨-, hvenue, hcooldown⟩ | ⟨hE, -⟩ | ⟨hDC, -⟩ | ⟨hFWH, -⟩ :=
    hmoves.venue_cases (h.passes_zero hepoch) hrow
  · refine ⟨h.settled_from_one, ?_, hcooldown, ?_, .inr ⟨rfl, ?_⟩⟩
    · rw [hvenue]
      simp [resetState, StrategyState.venue, h.steady.bookOk, (h.steady.shows 0).mid_eq]
    · intro k hk
      obtain rfl : k = 0 := by simpa using hk
      exact not_healthy_of_row hrow (by decide)
    · simp [VenueAccumulators.missing]
  · cases hE
  · simp at hDC
  · simp at hFWH

/-- Any other first frame is settled. -/
theorem opens_settled (h : Continues platform config sessionId book stream states) {lastEpoch : ℤ}
    (hepoch : (states 0).lastBookSourceEpoch = some lastEpoch)
    (hgap : (states 0).lastBookInGap ≠ some true) :
    Opens config stream states ⟨0, (states 0).venue, (states 0).eventCooldownUntilTs⟩ := by
  have hphase : phaseTransition (stream 0) (states 0) = false := by
    unfold phaseTransition
    rw [Option.any_eq_false]
    intro phase hphase
    simp [h.steady.fromPhase phase hphase]
  have hreopen : suspensionReopen (stream 0) (states 0) = false := by
    unfold suspensionReopen
    by_cases hsuspended : (states 0).lastSuspended = some true
    · simp [h.steady.fromSuspension true hsuspended]
    · simp [hsuspended]
  have hsettled : Settled config stream states 0 := by
    refine ⟨h.passes_zero hepoch, ?_⟩
    simp [resetTriggered, h.steady.sameTickRegime, hphase, hreopen, gapEpisodeEnd, hgap]
  refine ⟨fun k _ => ?_, rfl, rfl, fun k hk => absurd hk (Nat.not_lt_zero k), .inl ⟨rfl, rfl⟩⟩
  by_cases hk : k = 0
  · exact hk ▸ hsettled
  · exact h.settled_from_one k (by omega)

theorem opens (h : Continues platform config sessionId book stream states) :
    Opens config stream states (outset config book stream (states 0)) := by
  unfold outset
  cases hepoch : (states 0).lastBookSourceEpoch with
  | none => exact h.opens_cold hepoch
  | some lastEpoch =>
    match hgap : (states 0).lastBookInGap with
    | some true => exact h.opens_gap hepoch hgap
    | some false => exact h.opens_settled hepoch (by simp [hgap])
    | none => exact h.opens_settled hepoch (by simp [hgap])

/-! ## Row H -/

/-- The clock passes every deadline. -/
theorem exists_firstPast (h : Continues platform config sessionId book stream states)
    (deadline : Option ℤ) (first : ℕ) : ∃ c, FirstPast stream deadline first c := by
  have hclock : ∀ k, (stream first).asOfTs + k ≤ (stream (first + k)).asOfTs := by
    intro k
    induction k with
    | zero => simp
    | succ k ih =>
      have hnext := h.steady.clock (first + k)
      rw [← Nat.add_assoc]
      push_cast
      omega
  have hex : ∃ k, ∀ until_ ∈ deadline, until_ ≤ (stream (first + k)).asOfTs := by
    cases deadline with
    | none => exact ⟨0, by simp⟩
    | some until_ =>
      refine ⟨(until_ - (stream first).asOfTs).toNat, fun _ hmem => ?_⟩
      obtain rfl := Option.some.inj hmem
      have hpast := hclock (until_ - (stream first).asOfTs).toNat
      omega
  refine ⟨first + Nat.find hex, Nat.le_add_right _ _, Nat.find_spec hex, fun k hk hlt => ?_⟩
  obtain ⟨k, rfl⟩ := Nat.exists_eq_add_of_le hk
  have hearly := Nat.find_min hex (m := k) (by omega)
  push Not at hearly
  exact hearly

theorem reaches (h : Continues platform config sessionId book stream states) (k : ℕ) :
    ∃ frames, StrategyRun platform config sessionId {} frames (states k) := by
  induction k with
  | zero => exact h.reached
  | succ k ih =>
    obtain ⟨frames, hrun⟩ := ih
    obtain ⟨decision, hstep⟩ := h.follows k
    exact ⟨_, .snoc hrun hstep⟩

/-- A frame in row H is over warm references, which the windows bound. -/
theorem windows_of_healthy (h : Continues platform config sessionId book stream states) {k : ℕ}
    (hhealthy : Healthy config stream states k) :
    config.refMinSamples ≤ config.rollingSpreadWindow ∧
      config.refMinSamples ≤ config.rollingDepthWindow := by
  obtain ⟨frames, hrun⟩ := h.reaches k
  have hbounded : (states k).Bounded config := .of_run hrun
  obtain ⟨-, hspread, hdepth⟩ := referencesWarm_iff.mp (warm_of_row_H hhealthy.2)
  exact ⟨hspread.trans hbounded.spread, hdepth.trans hbounded.depth⟩

/-- A stream whose gates do not fire at its outset waits, trains, and finds its references warm. -/
theorem arrives (h : Continues platform config sessionId book stream states) {o : Outset}
    (ho : Opens config stream states o) {c : ℕ} (hc : FirstPast stream o.deadline o.first c)
    (hspread : config.refMinSamples ≤ config.rollingSpreadWindow)
    (hdepth : config.refMinSamples ≤ config.rollingDepthWindow)
    (hcalm : ¬ Trips (stream 0) config o.venue) :
    (states (c + o.venue.missing config)).venue =
        o.venue.trained platform.halfPow config book (fun k => (stream k).asOfTs) c
          (o.venue.missing config) ∧
      cooldownActive (stream (c + o.venue.missing config))
        (states (c + o.venue.missing config)) = false ∧
      ∀ j < c + o.venue.missing config, ¬ Healthy config stream states j := by
  have hvenue := ho.venue
  have hdeadline := ho.deadline
  obtain ⟨hwaited, hcooldown, hnone⟩ := h.waiting ho.settled (hvenue ▸ hcalm) (hdeadline ▸ hc)
    hc.starts le_rfl
  rw [hvenue] at hwaited
  rw [hdeadline] at hcooldown
  have hcool : cooldownActive (stream c) (states c) = false := by
    unfold cooldownActive
    rw [hcooldown, Option.any_eq_false]
    intro until_ huntil
    simpa using hc.past until_ huntil
  have hlater : ∀ k, c ≤ k → Settled config stream states k :=
    fun k hk => ho.settled k (hc.starts.trans hk)
  have htraining := h.training hlater hcool hspread hdepth le_rfl
  rw [hwaited] at htraining
  obtain ⟨htrained, hcool', hwarming⟩ := htraining
  refine ⟨htrained, hcool', fun j hj => ?_⟩
  by_cases hfirst : j < o.first
  · exact ho.before j hfirst
  · by_cases hjc : j < c
    · exact hnone j (by omega) hjc
    · exact hwarming j (by omega) hj

/-- **Where row H comes**: with wide enough windows the first frame in row H is the one that finds
the references warm, unless a gate fires there; then there is none. -/
theorem healthy_cases (h : Continues platform config sessionId book stream states) {o : Outset}
    (ho : Opens config stream states o) {c : ℕ} (hc : FirstPast stream o.deadline o.first c)
    (hspread : config.refMinSamples ≤ config.rollingSpreadWindow)
    (hdepth : config.refMinSamples ≤ config.rollingDepthWindow) :
    (Trips (stream 0) config (o.venue.trained platform.halfPow config book
        (fun k => (stream k).asOfTs) c (o.venue.missing config)) ∧
      ∀ j, ¬ Healthy config stream states j) ∨
    (¬ Trips (stream 0) config (o.venue.trained platform.halfPow config book
        (fun k => (stream k).asOfTs) c (o.venue.missing config)) ∧
      Healthy config stream states (c + o.venue.missing config) ∧
        ∀ j < c + o.venue.missing config, ¬ Healthy config stream states j) := by
  have hwarm := (trained_warm_iff platform.halfPow config book (fun k => (stream k).asOfTs) o.venue c
    (o.venue.missing config) hspread hdepth).mpr le_rfl
  by_cases htrips : Trips (stream 0) config o.venue
  · -- warm already, so nothing is missing and the gate fires at the outset
    left
    have hmissing : o.venue.missing config = 0 := by
      have hzero := (trained_warm_iff platform.halfPow config book
        (fun k => (stream k).asOfTs) o.venue c 0 hspread hdepth).mp htrips.warm
      omega
    rw [hmissing]
    refine ⟨htrips, fun j => ?_⟩
    by_cases hfirst : j < o.first
    · exact ho.before j hfirst
    · exact h.tripped ho.settled (ho.venue ▸ htrips) (by omega)
  · obtain ⟨htrained, hcool, hnone⟩ := h.arrives ho hc hspread hdepth htrips
    have hlater : ∀ k, c + o.venue.missing config ≤ k → Settled config stream states k := by
      intro k hk
      have hstarts := hc.starts
      exact ho.settled k (by omega)
    rw [← htrained] at hwarm ⊢
    by_cases harrived : Trips (stream 0) config (states (c + o.venue.missing config)).venue
    · refine .inl ⟨harrived, fun j => ?_⟩
      by_cases hj : j < c + o.venue.missing config
      · exact hnone j hj
      · exact h.tripped hlater harrived (by omega)
    · exact .inr ⟨harrived, h.step_healthy (hlater _ le_rfl) harrived hcool hwarm, hnone⟩

end Continues

/-! ## No lock-out, exactly -/

/-- When row H comes within `ref_min_samples` frames of frame `n`. -/
structure Resumes (platform : Platform) (config : StrategyConfig) (book : Book)
    (stream : ℕ → StrategyObservation) (state : StrategyState) (n : ℕ) : Prop where
  /-- Both windows hold as many samples as the references need. -/
  spreadWindow : config.refMinSamples ≤ config.rollingSpreadWindow
  depthWindow : config.refMinSamples ≤ config.rollingDepthWindow
  /-- By frame `n` some frame is past the cooldown of the outset, and once the book made up for the
  missing samples from the first such frame on, no gate fires against the references. -/
  calm : ∃ c ≤ n, FirstPast stream (outset config book stream state).deadline
      (outset config book stream state).first c ∧
    ¬ Trips (stream 0) config ((outset config book stream state).venue.trained platform.halfPow
      config book (fun k => (stream k).asOfTs) c
      ((outset config book stream state).venue.missing config))

theorem continues_streamStates {before : List Frame} {state : StrategyState}
    (hreached : StrategyRun platform config sessionId {} before state)
    (hguard : config.guardEnabled = false) (hsteady : SteadyStream config state book stream) :
    Continues platform config sessionId book stream
      (streamStates platform config sessionId state stream) := by
  have hstep : ∀ k, (streamStates platform config sessionId state stream k).Sound config →
      ∃ decision, DecideStep platform config sessionId
        (streamStates platform config sessionId state stream k) (stream k, decision)
        (streamStates platform config sessionId state stream (k + 1)) := by
    intro k hsound
    obtain ⟨⟨decision, nextState⟩, hdecide⟩ := decideFrame_ok platform (stream k) hsound
      sessionId
    refine ⟨decision, ?_⟩
    simp only [DecideStep, streamStates, hdecide]
  have hsound : ∀ k, (streamStates platform config sessionId state stream k).Sound config := by
    intro k
    induction k with
    | zero => exact StrategyState.Sound.run hreached .init
    | succ k ih =>
      obtain ⟨decision, hdecide⟩ := hstep k ih
      obtain ⟨raw, hmoves, -⟩ := hdecide.moves
      exact hmoves.sound ih
  exact ⟨⟨before, hreached⟩, hguard, hsteady, fun k => hstep k (hsound k)⟩

/-- **No lock-out, exactly**: on a steady stream, with frame `n` past the pending cooldown by the
dwell, row H comes by frame `n + ref_min_samples` if and only if the stream resumes. -/
theorem stream_resumes_iff {before : List Frame} {state : StrategyState} {n : ℕ}
    (hreached : StrategyRun platform config sessionId {} before state)
    (hguard : config.guardEnabled = false) (hsteady : SteadyStream config state book stream)
    (hpassed : ∀ deadline ∈ state.eventCooldownUntilTs,
      deadline + config.bookStateDwellBeforeQuoteMs ≤ (stream n).asOfTs) :
    (∃ k ≤ n + config.refMinSamples,
        Healthy config stream (streamStates platform config sessionId state stream) k) ↔
      Resumes platform config book stream state n := by
  have h := continues_streamStates hreached hguard hsteady
  have ho : Opens config stream (streamStates platform config sessionId state stream)
    (outset config book stream state) := h.opens
  have hmissing : (outset config book stream state).venue.missing config ≤
      config.refMinSamples := missing_le
  constructor
  · rintro ⟨k, hk, hhealthy⟩
    obtain ⟨hspread, hdepth⟩ := h.windows_of_healthy hhealthy
    obtain ⟨c, hc⟩ := h.exists_firstPast (outset config book stream state).deadline
      (outset config book stream state).first
    obtain ⟨-, hnever⟩ | ⟨hcalm, -, hearlier⟩ := h.healthy_cases ho hc hspread hdepth
    · exact absurd hhealthy (hnever k)
    · refine ⟨hspread, hdepth, c, ?_, hc, hcalm⟩
      have hlate : ¬ k < c + (outset config book stream state).venue.missing config :=
        fun hlt => hearlier k hlt hhealthy
      obtain ⟨hfirst, hdeadline⟩ | ⟨-, hall⟩ := ho.reset
      · -- the outset is the state itself, whose cooldown is past at `n`
        by_contra hnc
        obtain ⟨deadline, hmem, hlt⟩ := hc.waits n (by omega) (by omega)
        have hpast := hpassed deadline (hdeadline ▸ hmem)
        omega
      · omega
  · rintro ⟨hspread, hdepth, c, hcn, hc, hcalm⟩
    obtain ⟨htrips, -⟩ | ⟨-, hhealthy, -⟩ := h.healthy_cases ho hc hspread hdepth
    · exact absurd htrips hcalm
    · exact ⟨_, by omega, hhealthy⟩

/-! ## Streams after a cold start -/

/-- The state a cold start on a healthy frame leaves. -/
def startedState (config : StrategyConfig) : StrategyState :=
  accept (healthyFrame 0 0 (48 / 100) (52 / 100) []) {} config true false

/-- The same book, read every millisecond. -/
def restingBook : Book := ⟨48 / 100, 52 / 100, 100, 100, 5⟩

/-- Its frames after the first. -/
def restingStream (k : ℕ) : StrategyObservation :=
  healthyFrame (k + 1) (k + 1) (48 / 100) (52 / 100) []

theorem run_startedState (config : StrategyConfig) : ∃ before,
    StrategyRun flatPlatform config "" {} before (startedState config) := by
  let first := healthyFrame 0 0 (48 / 100) (52 / 100) []
  let decision := stampIdentity flatPlatform first config (funnelCancelOnExposure first (hold [])) {}
    (startedState config) ""
  have hstep : DecideStep flatPlatform config "" {} (first, decision) (startedState config) := rfl
  exact ⟨[(first, decision)], Run.single hstep⟩

theorem steady_restingStream (config : StrategyConfig)
    (hdeep : config.minTopDepth.le (.fin restingBook.depth) = true)
    (hlevels : (config.minLevelCount : ℤ) ≤ restingBook.levels) :
    SteadyStream config (startedState config) restingBook restingStream where
  shows := fun k => ⟨rfl, rfl, rfl, rfl, rfl⟩
  bookOk := fun k => rfl
  fresh := fun k => by simp [bookIsStale, restingStream, healthyFrame]
  aligned := fun k => by simp [legIsSkewed, restingStream, healthyFrame]
  deep := hdeep
  levelled := hlevels
  sameTickRegime := fun k => rfl
  samePhase := fun k => rfl
  sameSuspension := fun k => rfl
  sameEpoch := fun k => rfl
  clock := fun k => by simp [restingStream, healthyFrame]
  sequence := fun k => by simp [restingStream, healthyFrame]
  fromPhase := by
    intro phase hphase
    exact Option.some.inj hphase
  fromSuspension := by
    intro suspended hsuspended
    exact Option.some.inj hsuspended
  fromEpoch := by
    intro epoch hepoch
    exact Option.some.inj hepoch
  fromClock := by
    intro asOfTs hasOfTs
    obtain rfl := Option.some.inj hasOfTs
    simp [restingStream, healthyFrame]
  fromSequence := by
    intro sequence hsequence
    obtain rfl := Option.some.inj hsequence
    simp [restingStream, healthyFrame]

/-- With one sample to a warm reference the second frame after the cold start is in row H. -/
theorem stream_resumes_resting :
    Resumes flatPlatform (promptConfig false) restingBook restingStream
      (startedState (promptConfig false)) 0 := by
  obtain ⟨before, hreached⟩ := run_startedState (promptConfig false)
  have hsteady := steady_restingStream (promptConfig false) (by decide +kernel)
    (by decide +kernel)
  refine (stream_resumes_iff hreached rfl hsteady ?_).mp ⟨1, by decide, ⟨false, ?_⟩, ?_⟩
  · intro deadline hdeadline
    cases hdeadline
  · decide +kernel
  · decide +kernel

/-- **Locked out by a window**: the references of `narrowConfig` are never warm. -/
theorem stream_locked_out : ¬ ∀ (platform : Platform) (config : StrategyConfig)
    (sessionId : String) (before : List Frame) (state : StrategyState) (book : Book)
    (stream : ℕ → StrategyObservation) (n : ℕ),
    StrategyRun platform config sessionId {} before state → config.guardEnabled = false →
    SteadyStream config state book stream →
    (∀ deadline ∈ state.eventCooldownUntilTs,
      deadline + config.bookStateDwellBeforeQuoteMs ≤ (stream n).asOfTs) →
    ∃ k ≤ n + config.refMinSamples,
      Healthy config stream (streamStates platform config sessionId state stream) k := by
  intro h
  obtain ⟨before, hreached⟩ := run_startedState narrowConfig
  have hsteady := steady_restingStream narrowConfig (by decide +kernel)
    (by decide +kernel)
  obtain ⟨k, -, hhealthy⟩ := h flatPlatform narrowConfig "" before (startedState narrowConfig)
    restingBook restingStream 0 hreached rfl hsteady fun deadline hdeadline => by cases hdeadline
  have hwindows := (continues_streamStates hreached rfl hsteady).windows_of_healthy hhealthy
  exact absurd hwindows.1 (by decide)

end Veridex.MmStrategy
