import Veridex.MmStrategy.Runs

/-!
# A two-sided book and what it trains

`Book` is what an observation shows of a two-sided top of book. The smoother and the rolling
references are trained by it alone (`venue_admitVenueUpdates`), and the venue gates of a frame read
it and them alone (`warmVenueEvent_eq`). `Moves.venue_cases` says what each row makes of the
accumulators and of the cooldown.

Training over one book, the references are warm after `missing` frames, and not before, when the
windows are wide enough (`trained_warm_iff`).
-/

namespace Veridex.MmStrategy

open Veridex.Py Veridex.Lib

/-- Both sides of a book, and its levels in band. -/
structure Book where
  bid : ℚ
  ask : ℚ
  bidSize : ℚ
  askSize : ℚ
  levels : ℤ

namespace Book

variable (book : Book)

def mid : ℚ := (book.bid + book.ask) / 2

def spread : ℚ := book.ask - book.bid

def depth : ℚ := min book.bidSize book.askSize

end Book

/-- The observation reads the book. -/
structure Shows (observation : StrategyObservation) (book : Book) : Prop where
  bid : observation.bid = some book.bid
  ask : observation.ask = some book.ask
  bidSize : observation.bidSize = some book.bidSize
  askSize : observation.askSize = some book.askSize
  levels : observation.levelCountInBand = book.levels

/-- The accumulators after a frame of the book is admitted at `asOfTs`. -/
def VenueAccumulators.train (halfPow : ℚ → ℚ) (config : StrategyConfig) (book : Book)
    (venue : VenueAccumulators) (asOfTs : ℤ) : VenueAccumulators where
  smootherMid := some <|
    match venue.smootherMid with
    | none => book.mid
    | some prev =>
      let priorTs := venue.smootherMidTs.getD asOfTs
      eventSmootherUpdate halfPow prev book.mid config (asOfTs - priorTs : ℤ)
  smootherMidTs := some asOfTs
  spreadRefSamples := lastN (venue.spreadRefSamples ++ [book.spread]) config.rollingSpreadWindow
  depthRefSamples := lastN (venue.depthRefSamples ++ [book.depth]) config.rollingDepthWindow

/-- The accumulators after the frames of the book at `asOfTs first`, `asOfTs (first + 1)`, and so
on. -/
def VenueAccumulators.trained (halfPow : ℚ → ℚ) (config : StrategyConfig) (book : Book)
    (asOfTs : ℕ → ℤ) (venue : VenueAccumulators) (first : ℕ) : ℕ → VenueAccumulators
  | 0 => venue
  | count + 1 =>
    (venue.trained halfPow config book asOfTs first count).train halfPow config book
      (asOfTs (first + count))

/-- `_references_warm`, of the accumulators. -/
structure VenueAccumulators.Warm (config : StrategyConfig) (venue : VenueAccumulators) : Prop where
  smoother : venue.smootherMid ≠ none
  spread : config.refMinSamples ≤ venue.spreadRefSamples.length
  depth : config.refMinSamples ≤ venue.depthRefSamples.length

/-- How many frames the accumulators lack to be warm. -/
def VenueAccumulators.missing (config : StrategyConfig) (venue : VenueAccumulators) : ℕ :=
  max (config.refMinSamples - venue.spreadRefSamples.length)
    (max (config.refMinSamples - venue.depthRefSamples.length)
      (if venue.smootherMid = none then 1 else 0))

/-- A state of these accumulators, otherwise initial. -/
def VenueAccumulators.toState (venue : VenueAccumulators) : StrategyState where
  smootherMid := venue.smootherMid
  smootherMidTs := venue.smootherMidTs
  spreadRefSamples := venue.spreadRefSamples
  depthRefSamples := venue.depthRefSamples

/-- A venue gate of the observation fires against the accumulators, which are warm. -/
def Trips (observation : StrategyObservation) (config : StrategyConfig)
    (venue : VenueAccumulators) : Prop :=
  ∃ reason, warmVenueEvent observation venue.toState config = .ok (some reason)

variable {platform : Platform} {config : StrategyConfig} {book : Book}
  {observation observation' : StrategyObservation} {state nextState base : StrategyState}
  {decision : StrategyDecision} {halfPow : ℚ → ℚ} {asOfTs : ℕ → ℤ} {venue : VenueAccumulators}

/-! ## A frame of the book -/

theorem Shows.mid_eq (h : Shows observation book) : mid observation = some book.mid := by
  simp [mid, h.bid, h.ask, Book.mid]

theorem Shows.spread_eq (h : Shows observation book) : spread observation = some book.spread := by
  simp [spread, h.bid, h.ask, Book.spread]

theorem Shows.topDepth_eq (h : Shows observation book) :
    topDepth observation = some book.depth := by
  simp [topDepth, h.bidSize, h.askSize, Book.depth]

theorem venue_admitVenueUpdates (h : Shows observation book) :
    (admitVenueUpdates halfPow observation base config).venue =
      base.venue.train halfPow config book observation.asOfTs := by
  unfold admitVenueUpdates StrategyState.venue VenueAccumulators.train
  rw [h.mid_eq, h.spread_eq, h.topDepth_eq]
  rfl

theorem referencesWarm_iff_venue :
    referencesWarm state config = true ↔ state.venue.Warm config := by
  rw [referencesWarm_iff]
  exact ⟨fun ⟨hsmoother, hspread, hdepth⟩ => ⟨hsmoother, hspread, hdepth⟩,
    fun ⟨hsmoother, hspread, hdepth⟩ => ⟨hsmoother, hspread, hdepth⟩⟩

/-- The gates read the book and the accumulators. -/
theorem warmVenueEvent_eq (h : Shows observation book) (h' : Shows observation' book) :
    warmVenueEvent observation state config =
      warmVenueEvent observation' state.venue.toState config := by
  have hstate : warmVenueEvent observation' state.venue.toState config =
      warmVenueEvent observation' state config := rfl
  rw [hstate]
  unfold warmVenueEvent venueEventReason depthVanished spreadBlownOut midJumped
  rw [h.topDepth_eq, h'.topDepth_eq, h.spread_eq, h'.spread_eq, h.mid_eq, h'.mid_eq, h.levels,
    h'.levels]

theorem trips_iff (h : Shows observation book) (h' : Shows observation' book) :
    Trips observation' config state.venue ↔
      ∃ reason, warmVenueEvent observation state config = .ok (some reason) := by
  unfold Trips
  rw [warmVenueEvent_eq h h']

theorem Trips.warm (h : Trips observation config venue) : venue.Warm config := by
  obtain ⟨reason, hreason⟩ := h
  exact referencesWarm_iff_venue.mp (warm_of_warmVenueEvent hreason)

/-! ## What each row makes of the accumulators -/

/-- **A frame that passes**, by its row: a reset, no admission, or the admission of its book. -/
theorem Moves.venue_cases {fvReset : Bool} {row : Row}
    (h : Moves platform observation state config decision nextState)
    (hverdict : admission observation state config = .pass fvReset)
    (hrow : classifyRow observation state config = .ok row) :
    (row = .R ∧ nextState.venue = (resetState observation state config).venue ∧
      nextState.eventCooldownUntilTs = some (cooldownDeadline observation config)) ∨
    (row = .E ∧ nextState.venue = state.venue) ∨
    ((row = .D ∨ row = .C) ∧ nextState.venue = state.venue ∧
      nextState.eventCooldownUntilTs = state.eventCooldownUntilTs) ∨
    ((row = .F ∨ row = .W ∨ row = .H) ∧ nextState.eventCooldownUntilTs = none ∧
      nextState.venue = (admitVenueUpdates platform.halfPow observation
        (accept observation state config false fvReset) config).venue) := by
  have hsame : ∀ {row' : Row}, classifyRow observation state config = .ok row' → row = row' := by
    intro row' hrow'
    exact Except.ok.inj (hrow.symm.trans hrow')
  cases h with
  | coldStart verdict | rejected _ verdict | reconnect verdict =>
    rw [hverdict] at verdict
    cases verdict
  | reset fvReset' verdict classified => exact .inl ⟨hsame classified, rfl, rfl⟩
  | event fvReset' reason verdict classified => exact .inr (.inl ⟨hsame classified, by simp⟩)
  | degraded fvReset' reasons verdict classified =>
    exact .inr (.inr (.inl ⟨.inl (hsame classified), by simp, by simp⟩))
  | cooling fvReset' verdict classified =>
    exact .inr (.inr (.inl ⟨.inr (hsame classified), by simp, by simp⟩))
  | healthy fvReset' row' decision verdict classified admits =>
    obtain rfl := hsame classified
    obtain rfl := Admission.pass.inj (hverdict.symm.trans verdict)
    exact .inr (.inr (.inr ⟨admits, by simp, by simp⟩))

/-! ## Warming up -/

/-- Up to `least`, a window at least as wide holds one sample more after each append. -/
theorem min_length_lastN {α : Type} {least window : ℕ} (hwindow : least ≤ window) (xs : List α)
    (x : α) : min least (lastN (xs ++ [x]) window).length = min least (xs.length + 1) := by
  rw [length_lastN, List.length_append, List.length_singleton]
  omega

section Warming

variable (halfPow : ℚ → ℚ) (config : StrategyConfig) (book : Book) (asOfTs : ℕ → ℤ)
  (venue : VenueAccumulators) (first count : ℕ)

theorem min_length_trained_spread (hwindow : config.refMinSamples ≤ config.rollingSpreadWindow) :
    min config.refMinSamples
        (venue.trained halfPow config book asOfTs first count).spreadRefSamples.length =
      min config.refMinSamples (venue.spreadRefSamples.length + count) := by
  induction count with
  | zero => rfl
  | succ count ih =>
    have hpush := min_length_lastN hwindow
      (venue.trained halfPow config book asOfTs first count).spreadRefSamples book.spread
    simp only [VenueAccumulators.trained, VenueAccumulators.train]
    omega

theorem min_length_trained_depth (hwindow : config.refMinSamples ≤ config.rollingDepthWindow) :
    min config.refMinSamples
        (venue.trained halfPow config book asOfTs first count).depthRefSamples.length =
      min config.refMinSamples (venue.depthRefSamples.length + count) := by
  induction count with
  | zero => rfl
  | succ count ih =>
    have hpush := min_length_lastN hwindow
      (venue.trained halfPow config book asOfTs first count).depthRefSamples book.depth
    simp only [VenueAccumulators.trained, VenueAccumulators.train]
    omega

theorem trained_smoother : (venue.trained halfPow config book asOfTs first count).smootherMid ≠ none ↔
    venue.smootherMid ≠ none ∨ 0 < count := by
  cases count with
  | zero => simp [VenueAccumulators.trained]
  | succ count => simp [VenueAccumulators.trained, VenueAccumulators.train]

/-- **The references are warm from `missing` frames on.** -/
theorem trained_warm_iff (hspread : config.refMinSamples ≤ config.rollingSpreadWindow)
    (hdepth : config.refMinSamples ≤ config.rollingDepthWindow) :
    (venue.trained halfPow config book asOfTs first count).Warm config ↔
      venue.missing config ≤ count := by
  have hs := min_length_trained_spread halfPow config book asOfTs venue first count hspread
  have hd := min_length_trained_depth halfPow config book asOfTs venue first count hdepth
  have hm := trained_smoother halfPow config book asOfTs venue first count
  unfold VenueAccumulators.missing
  constructor
  · rintro ⟨hsmoother, hspreads, hdepths⟩
    rw [hm] at hsmoother
    split_ifs with hnone
    · have hcount : 0 < count := hsmoother.resolve_left (absurd hnone)
      omega
    · omega
  · intro hcount
    refine ⟨hm.mpr ?_, ?_, ?_⟩
    · split_ifs at hcount with hnone
      · right
        omega
      · exact .inl hnone
    · omega
    · omega

end Warming

theorem missing_le : venue.missing config ≤ config.refMinSamples := by
  have hpos := config.refMinSamples_pos
  unfold VenueAccumulators.missing
  split_ifs <;> omega

/-! ## The windows bound the references -/

/-- No reference outgrows its window. -/
structure StrategyState.Bounded (config : StrategyConfig) (state : StrategyState) : Prop where
  spread : state.spreadRefSamples.length ≤ config.rollingSpreadWindow
  depth : state.depthRefSamples.length ≤ config.rollingDepthWindow

theorem StrategyState.Bounded.of_venue (h : base.Bounded config)
    (hvenue : nextState.venue = base.venue) : nextState.Bounded config := by
  simp only [StrategyState.venue, VenueAccumulators.mk.injEq] at hvenue
  obtain ⟨-, -, hspread, hdepth⟩ := hvenue
  refine ⟨?_, ?_⟩
  · rw [hspread]
    exact h.spread
  · rw [hdepth]
    exact h.depth

theorem bounded_admitVenueUpdates (halfPow : ℚ → ℚ) (observation : StrategyObservation)
    (h : base.Bounded config) :
    (admitVenueUpdates halfPow observation base config).Bounded config := by
  constructor
  · unfold admitVenueUpdates
    cases spread observation with
    | none => exact h.spread
    | some spread => simp
  · unfold admitVenueUpdates
    cases topDepth observation with
    | none => exact h.depth
    | some depth => simp

/-- Every frame keeps the bound. -/
theorem Moves.bounded (h : Moves platform observation state config decision nextState)
    (hbounded : state.Bounded config) : nextState.Bounded config := by
  have hbase : ∀ fvReset, (accept observation state config false fvReset).Bounded config := by
    intro fvReset
    exact hbounded.of_venue (by simp)
  cases h with
  | coldStart => exact ⟨Nat.zero_le _, Nat.zero_le _⟩
  | rejected => exact hbounded
  | reconnect => exact ⟨Nat.zero_le _, Nat.zero_le _⟩
  | reset => exact ⟨Nat.zero_le _, Nat.zero_le _⟩
  | event fvReset => exact (hbase fvReset).of_venue (by simp)
  | degraded fvReset => exact hbase fvReset
  | cooling fvReset => exact hbase fvReset
  | healthy fvReset =>
    have hadmitted := bounded_admitVenueUpdates platform.halfPow observation (hbase fvReset)
    exact hadmitted.of_venue (by simp)

theorem StrategyState.Bounded.of_run {sessionId : String} {frames : List Frame}
    (h : StrategyRun platform config sessionId {} frames state) : state.Bounded config := by
  refine h.invariant (fun _ state => state.Bounded config) ⟨Nat.zero_le _, Nat.zero_le _⟩
    fun _ _ _ _ ih hstep => ?_
  obtain ⟨raw, hmoves, -⟩ := DecideStep.moves hstep
  exact hmoves.bounded ih

end Veridex.MmStrategy
