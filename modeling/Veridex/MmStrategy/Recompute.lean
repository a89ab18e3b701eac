import Veridex.Lib.TimedFold
import Veridex.MmStrategy.QuoteGate

/-!
# The online accumulators against a recomputation (`mm_strategy/core.py`, `mm_strategy/basis.py`)

`decide` keeps the smoother, the two references and the basis one frame at a time. Here they are
recomputed from the log of the whole run: each observation with what the watermark layer and the
classification made of it (`frameLog`). A reset of the venue accumulators is a cold start, a reconnect
or row R; a reset of the basis is one of these, or an advance of the fair-value epoch, which clears
before the frame's own sample is admitted.

Results: `runs_recomputed`.
-/

namespace Veridex.MmStrategy

open Veridex.Py Veridex.Lib

/-! ## The log of a run -/

/-- One frame of the log. The row is that of a frame that passed the watermark. -/
structure LogEntry where
  observation : StrategyObservation
  verdict : Admission
  row : Option Row

/-- What the watermark layer and the classification make of a frame. -/
def logEntry (observation : StrategyObservation) (state : StrategyState) (config : StrategyConfig) :
    LogEntry where
  observation := observation
  verdict := admission observation state config
  row :=
    match admission observation state config with
    | .pass _ => (classifyRow observation state config).toOption
    | _ => none

/-- The log of the observations folded through `decide`. -/
def frameLog (platform : Platform) (config : StrategyConfig) (sessionId : String) :
    StrategyState → List StrategyObservation → List LogEntry
  | _, [] => []
  | state, observation :: observations =>
    let nextState :=
      match decideFrame platform observation state config sessionId with
      | .ok (_, nextState) => nextState
      | .error _ => state
    logEntry observation state config ::
      frameLog platform config sessionId nextState observations

namespace LogEntry

variable (config : StrategyConfig) (entry : LogEntry)

/-- Row R, which a reconnect takes too: the only frames that seed the smoother. -/
def reseeds : Bool := entry.verdict = .reconnect ∨ entry.row = some .R

/-- The frame clears the venue accumulators. -/
def resetsVenue : Bool := entry.verdict = .coldStart ∨ entry.reseeds

/-- The frame clears the basis. -/
def resetsBasis : Bool := entry.resetsVenue ∨ entry.verdict = .pass true

/-- The frame is in a row that trains: F, W or H. -/
def admitted : Bool := entry.row = some .F ∨ entry.row = some .W ∨ entry.row = some .H

/-- The mid the smoother takes: of an admitted frame, or of a reset with an `ok` book. -/
def midSample : Option (ℤ × ℚ) :=
  if entry.admitted ∨ (entry.reseeds ∧ entry.observation.bookStatus = .ok) then
    (mid entry.observation).map fun mid => (entry.observation.asOfTs, mid)
  else none

def spreadSample : Option ℚ := if entry.admitted then spread entry.observation else none

def depthSample : Option ℚ := if entry.admitted then topDepth entry.observation else none

/-- The gap of an admitted frame in the guarded arm, against a fair value that is there, fresh and
not of a suspended match. -/
def gapSample : Option (ℤ × ℚ) :=
  match entry.observation.guardFv, mid entry.observation with
  | some guardFv, some mid =>
    if entry.admitted ∧ config.guardEnabled ∧
        fvIsStale entry.observation config guardFv = false ∧
        entry.observation.suspended = false then
      some (entry.observation.asOfTs, guardFv.fv - mid)
    else none
  | _, _ => none

end LogEntry

/-! ## The recomputation -/

/-- The mids since the last venue reset. -/
def midSamples (log : List LogEntry) : List (ℤ × ℚ) :=
  samplesSince LogEntry.resetsVenue LogEntry.midSample log

/-- The raw spreads since the last venue reset. -/
def spreadSamples (log : List LogEntry) : List ℚ :=
  samplesSince LogEntry.resetsVenue LogEntry.spreadSample log

/-- The raw top depths since the last venue reset. -/
def depthSamples (log : List LogEntry) : List ℚ :=
  samplesSince LogEntry.resetsVenue LogEntry.depthSample log

/-- The admitted gaps since the last basis reset. -/
def gapSamples (config : StrategyConfig) (log : List LogEntry) : List (ℤ × ℚ) :=
  samplesSince LogEntry.resetsBasis (LogEntry.gapSample config) log

/-- The smoother of a series of mids. -/
def smootherOver (halfPow : ℚ → ℚ) (config : StrategyConfig) : List (ℤ × ℚ) → Option ℚ :=
  seededFold fun prev mid dtMs => eventSmootherUpdate halfPow prev mid config dtMs

/-- The half-life estimate of a series of gaps. -/
def ewmaOver (halfPow : ℚ → ℚ) (config : StrategyConfig) : List (ℤ × ℚ) → Option ℚ :=
  seededFold fun prev gap dtMs => halflifeEwma halfPow prev gap dtMs config.ewmaHalflifeMs

/-- The online state of the smoother and the references is that of the log. -/
structure VenueRecomputed (halfPow : ℚ → ℚ) (config : StrategyConfig) (log : List LogEntry)
    (venue : VenueAccumulators) : Prop where
  smoother : venue.smootherMid = smootherOver halfPow config (midSamples log)
  smootherTs : venue.smootherMidTs = lastTs (midSamples log)
  spreads : venue.spreadRefSamples = lastN (spreadSamples log) config.rollingSpreadWindow
  depths : venue.depthRefSamples = lastN (depthSamples log) config.rollingDepthWindow

/-- The online basis is that of the gaps, for the configured estimator. -/
structure BasisRecomputed (halfPow : ℚ → ℚ) (config : StrategyConfig) (gaps : List (ℤ × ℚ))
    (state : StrategyState) : Prop where
  count : state.basisSampleCount = gaps.length
  window : config.basisEstimator = .rollingMedian →
    state.basisSamples = lastN gaps config.basisWindow
  ewma : config.basisEstimator = .halflifeEwma →
    state.basisEwmaValue = ewmaOver halfPow config gaps ∧ state.basisEwmaTs = lastTs gaps

variable {platform : Platform} {halfPow : ℚ → ℚ} {config : StrategyConfig} {sessionId : String}
  {observation : StrategyObservation} {state nextState : StrategyState} {log : List LogEntry}
  {venue : VenueAccumulators} {gaps : List (ℤ × ℚ)} {decision : StrategyDecision}

/-! ## The entry of a move -/

theorem logEntry_of_not_pass (h : ∀ fvReset, admission observation state config ≠ .pass fvReset) :
    (logEntry observation state config).row = none := by
  unfold logEntry
  cases hverdict : admission observation state config with
  | pass fvReset => exact absurd hverdict (h fvReset)
  | _ => rfl

theorem logEntry_of_pass {fvReset : Bool} {row : Row}
    (hverdict : admission observation state config = .pass fvReset)
    (hrow : classifyRow observation state config = .ok row) :
    logEntry observation state config = ⟨observation, .pass fvReset, some row⟩ := by
  simp [logEntry, hverdict, hrow, Except.toOption]

/-! ## The venue accumulators -/

/-- What a series keeps after a venue reset that holds no reference sample. -/
theorem venueRecomputed_cleared {entry : LogEntry} (hresets : entry.resetsVenue = true)
    (hrow : entry.admitted = false) : VenueRecomputed halfPow config (log ++ [entry])
      ⟨entry.midSample.map Prod.snd, entry.midSample.map Prod.fst, [], []⟩ := by
  constructor
  · rw [midSamples, samplesSince_concat, if_pos hresets]
    cases entry.midSample <;> rfl
  · rw [midSamples, samplesSince_concat, if_pos hresets]
    cases entry.midSample <;> rfl
  · rw [spreadSamples, samplesSince_concat, if_pos hresets]
    simp [LogEntry.spreadSample, hrow, lastN, List.rtake]
  · rw [depthSamples, samplesSince_concat, if_pos hresets]
    simp [LogEntry.depthSample, hrow, lastN, List.rtake]

/-- A frame that neither resets nor trains leaves the accumulators. -/
theorem VenueRecomputed.kept {entry : LogEntry} (h : VenueRecomputed halfPow config log venue)
    (hresets : entry.resetsVenue = false) (hrow : entry.admitted = false) :
    VenueRecomputed halfPow config (log ++ [entry]) venue := by
  have hseeds : entry.reseeds = false := by
    simp only [LogEntry.resetsVenue, decide_eq_false_iff_not, not_or, Bool.not_eq_true] at hresets
    exact hresets.2
  have hmid : entry.midSample = none := by simp [LogEntry.midSample, hrow, hseeds]
  have hmids : midSamples (log ++ [entry]) = midSamples log := by
    rw [midSamples, samplesSince_concat, hresets, hmid]
    simp [midSamples]
  constructor
  · rw [h.smoother, hmids]
  · rw [h.smootherTs, hmids]
  · rw [h.spreads, spreadSamples, spreadSamples, samplesSince_concat, hresets]
    simp [LogEntry.spreadSample, hrow]
  · rw [h.depths, depthSamples, depthSamples, samplesSince_concat, hresets]
    simp [LogEntry.depthSample, hrow]

/-- An admitted frame folds its own mid, spread and depth in. -/
theorem VenueRecomputed.trained {entry : LogEntry} {base : StrategyState}
    (h : VenueRecomputed halfPow config log base.venue) (hresets : entry.resetsVenue = false)
    (hrow : entry.admitted = true) : VenueRecomputed halfPow config (log ++ [entry])
      (admitVenueUpdates halfPow entry.observation base config).venue := by
  have hsmoother : base.smootherMid = smootherOver halfPow config (midSamples log) := h.smoother
  have hsmootherTs : base.smootherMidTs = lastTs (midSamples log) := h.smootherTs
  have hmids : midSamples (log ++ [entry]) = midSamples log ++ entry.midSample.toList := by
    rw [midSamples, samplesSince_concat, hresets]
    rfl
  have hmid : entry.midSample =
      (mid entry.observation).map fun mid => (entry.observation.asOfTs, mid) := by
    simp [LogEntry.midSample, hrow]
  constructor
  · rw [hmids, hmid]
    cases hobserved : mid entry.observation with
    | none => simpa [StrategyState.venue, admitVenueUpdates, hobserved] using hsmoother
    | some observed =>
      simp only [StrategyState.venue, admitVenueUpdates, hobserved, Option.map_some, Option.some_or,
        Option.toList_some, smootherOver, seededFold_concat, admitSmoother]
      rw [hsmoother, hsmootherTs, smootherOver]
      cases midSamples log using List.reverseRecOn with
      | nil => rfl
      | append_singleton series sample =>
        rw [lastTs_concat, seededFold_concat]
        rfl
  · rw [hmids, hmid]
    cases hobserved : mid entry.observation with
    | none => simpa [StrategyState.venue, admitVenueUpdates, hobserved] using hsmootherTs
    | some observed => simp [StrategyState.venue, admitVenueUpdates, hobserved]
  · have hspreads : base.spreadRefSamples = lastN (spreadSamples log) config.rollingSpreadWindow :=
      h.spreads
    rw [spreadSamples, samplesSince_concat, hresets]
    simp only [LogEntry.spreadSample, hrow, StrategyState.venue, admitVenueUpdates]
    cases spread entry.observation with
    | none => simpa [spreadSamples] using hspreads
    | some observed =>
      rw [hspreads]
      exact lastN_lastN_append _ _ _
  · have hdepths : base.depthRefSamples = lastN (depthSamples log) config.rollingDepthWindow :=
      h.depths
    rw [depthSamples, samplesSince_concat, hresets]
    simp only [LogEntry.depthSample, hrow, StrategyState.venue, admitVenueUpdates]
    cases topDepth entry.observation with
    | none => simpa [depthSamples] using hdepths
    | some observed =>
      rw [hdepths]
      exact lastN_lastN_append _ _ _

/-! ## The basis -/

theorem basisRecomputed_nil (hsamples : state.basisSamples = []) (hvalue : state.basisEwmaValue = none)
    (hts : state.basisEwmaTs = none) (hcount : state.basisSampleCount = 0) :
    BasisRecomputed halfPow config [] state where
  count := hcount
  window := fun _ => hsamples.trans (by simp [lastN, List.rtake])
  ewma := fun _ => ⟨hvalue, hts⟩

theorem BasisRecomputed.of_basisFields {base : StrategyState}
    (h : BasisRecomputed halfPow config gaps base)
    (hfields : nextState.basisFields = base.basisFields) :
    BasisRecomputed halfPow config gaps nextState := by
  simp only [StrategyState.basisFields, Prod.mk.injEq] at hfields
  obtain ⟨hsamples, hvalue, hts, hcount⟩ := hfields
  constructor
  · rw [hcount, h.count]
  · rw [hsamples]
    exact h.window
  · rw [hvalue, hts]
    exact h.ewma

/-- One more gap. -/
theorem BasisRecomputed.admitGap {base : StrategyState} (h : BasisRecomputed halfPow config gaps base)
    (rawGap : ℚ) : BasisRecomputed halfPow config (gaps ++ [(observation.asOfTs, rawGap)])
      (admitGap halfPow observation base config rawGap) := by
  unfold MmStrategy.admitGap
  cases hkind : config.basisEstimator with
  | halflifeEwma =>
    obtain ⟨hvalue, hts⟩ := h.ewma hkind
    constructor
    · simp [h.count]
    · intro hother
      rw [hkind] at hother
      cases hother
    · intro _
      dsimp only
      rw [hvalue, hts, ewmaOver, seededFold_concat, lastTs_concat]
      refine ⟨?_, rfl⟩
      generalize seededFold _ gaps = value
      cases value <;> cases lastTs gaps <;> rfl
  | rollingMedian =>
    constructor
    · simp [h.count]
    · intro _
      dsimp only
      rw [h.window hkind]
      exact lastN_lastN_append _ _ _
    · intro hother
      rw [hkind] at hother
      cases hother

/-- An admitted frame folds its own gap in, where it has one. -/
theorem BasisRecomputed.trained {base : StrategyState} {entry : LogEntry}
    (h : BasisRecomputed halfPow config gaps base) (hrow : entry.admitted = true) :
    BasisRecomputed halfPow config (gaps ++ (entry.gapSample config).toList)
      (admitBasisUpdates halfPow entry.observation base config) := by
  unfold admitBasisUpdates LogEntry.gapSample guardFvBlockReason
  cases hguard : config.guardEnabled with
  | false =>
    cases entry.observation.guardFv with
    | none => simpa using h
    | some guardFv => cases mid entry.observation <;> simpa using h
  | true =>
    cases entry.observation.guardFv with
    | none => simpa using h
    | some guardFv =>
      cases hstale : fvIsStale entry.observation config guardFv with
      | true => cases mid entry.observation <;> simpa [hstale] using h
      | false =>
        cases hsuspended : entry.observation.suspended with
        | true => cases mid entry.observation <;> simpa [hstale, hsuspended] using h
        | false =>
          cases mid entry.observation with
          | none => simpa [hstale, hsuspended] using h
          | some mid => simpa [hstale, hsuspended, hrow] using h.admitGap (guardFv.fv - mid)

theorem basisFold_eq (halflifeMs : ℚ) : ∀ (prevTs : ℤ) (acc : ℚ) (series : List (ℤ × ℚ)),
    basisFold halfPow halflifeMs prevTs acc series =
      timedFold (fun prev gap dtMs => halflifeEwma halfPow prev gap dtMs halflifeMs) prevTs acc series
  | _, _, [] => rfl
  | prevTs, acc, (ts, gap) :: series => by
    rw [basisFold, timedFold, basisFold_eq]

/-- **What is read off the state** is `basis` over every gap. -/
theorem BasisRecomputed.basisFromState_eq (h : BasisRecomputed halfPow config gaps state) :
    basisFromState halfPow state config = basis halfPow gaps config := by
  unfold basisFromState basis
  cases hkind : config.basisEstimator with
  | halflifeEwma =>
    obtain ⟨hvalue, -⟩ := h.ewma hkind
    cases gaps with
    | nil => simp [hvalue, ewmaOver, seededFold]
    | cons first series =>
      obtain ⟨ts, gap⟩ := first
      simp only [hvalue, ewmaOver, seededFold]
      rw [basisFold_eq]
  | rollingMedian =>
    have hpos := config.basisWindow_pos
    have hsamples := h.window hkind
    cases gaps with
    | nil => simp [hsamples, lastN, List.rtake]
    | cons first series =>
      cases hkept : state.basisSamples with
      | nil =>
        rw [hkept, eq_comm, lastN_eq_nil_iff hpos] at hsamples
        cases hsamples
      | cons sample rest =>
        dsimp only
        rw [← hkept, hsamples, lastN_lastN]

/-! ## One frame -/

/-- The online state after a run is that of its log. -/
structure Recomputed (halfPow : ℚ → ℚ) (config : StrategyConfig) (log : List LogEntry)
    (state : StrategyState) : Prop where
  venue : VenueRecomputed halfPow config log state.venue
  basis : BasisRecomputed halfPow config (gapSamples config log) state

theorem recomputed_init : Recomputed halfPow config [] {} :=
  ⟨⟨rfl, rfl, by simp [spreadSamples, samplesSince, sinceLast, lastN, List.rtake, StrategyState.venue],
    by simp [depthSamples, samplesSince, sinceLast, lastN, List.rtake, StrategyState.venue]⟩,
    basisRecomputed_nil rfl rfl rfl rfl⟩

theorem gapSamples_concat (entry : LogEntry) : gapSamples config (log ++ [entry]) =
    (if entry.resetsBasis then [] else gapSamples config log) ++ (entry.gapSample config).toList :=
  samplesSince_concat log entry

theorem gapSample_eq_none {entry : LogEntry} (hrow : entry.admitted = false) :
    entry.gapSample config = none := by
  unfold LogEntry.gapSample
  cases entry.observation.guardFv with
  | none => rfl
  | some guardFv => cases mid entry.observation <;> simp [hrow]

/-- The basis a passing frame starts from: cleared where the fair-value epoch advanced. -/
theorem BasisRecomputed.accept (h : BasisRecomputed halfPow config gaps state) (fvReset : Bool) :
    BasisRecomputed halfPow config (if fvReset then [] else gaps)
      (accept observation state config false fvReset) := by
  cases fvReset with
  | true => exact basisRecomputed_nil rfl rfl rfl rfl
  | false => exact h.of_basisFields rfl

/-- Row R, which a reconnect takes too. -/
theorem recomputed_reset {base : StrategyState} {entry : LogEntry}
    (hseeds : entry.reseeds = true) (hadmitted : entry.admitted = false) :
    Recomputed halfPow config (log ++ [entry]) (resetState entry.observation base config) := by
  have hresets : entry.resetsVenue = true := by simp [LogEntry.resetsVenue, hseeds]
  have hbasis : entry.resetsBasis = true := by simp [LogEntry.resetsBasis, hresets]
  constructor
  · have hvenue : (resetState entry.observation base config).venue =
        ⟨entry.midSample.map Prod.snd, entry.midSample.map Prod.fst, [], []⟩ := by
      unfold resetState StrategyState.venue LogEntry.midSample
      rw [hseeds, hadmitted]
      by_cases hbook : entry.observation.bookStatus = .ok
      · cases mid entry.observation <;> simp [hbook]
      · simp [hbook]
    rw [hvenue]
    exact venueRecomputed_cleared hresets hadmitted
  · rw [gapSamples_concat, gapSample_eq_none hadmitted, hbasis]
    exact basisRecomputed_nil rfl rfl rfl rfl

/-- A frame in row E, D or C. -/
theorem Recomputed.untrained {fvReset : Bool} {row : Row}
    (h : Recomputed halfPow config log state)
    (hverdict : admission observation state config = .pass fvReset)
    (hclassified : classifyRow observation state config = .ok row)
    (hrow : row = .E ∨ row = .D ∨ row = .C) (hvenue : nextState.venue = state.venue)
    (hfields : nextState.basisFields =
      (MmStrategy.accept observation state config false fvReset).basisFields) :
    Recomputed halfPow config (log ++ [logEntry observation state config]) nextState := by
  have hentry := logEntry_of_pass hverdict hclassified
  have hadmitted : (logEntry observation state config).admitted = false := by
    rw [hentry]
    rcases hrow with rfl | rfl | rfl <;> rfl
  have hresets : (logEntry observation state config).resetsVenue = false := by
    rw [hentry]
    rcases hrow with rfl | rfl | rfl <;> rfl
  constructor
  · rw [hvenue]
    exact h.venue.kept hresets hadmitted
  · rw [gapSamples_concat, gapSample_eq_none hadmitted, Option.toList_none, List.append_nil]
    have hbasis : (logEntry observation state config).resetsBasis = fvReset := by
      rw [LogEntry.resetsBasis, hresets, hentry]
      cases fvReset <;> rfl
    rw [hbasis]
    exact (h.basis.accept fvReset).of_basisFields hfields

/-- **One frame** keeps the online state and the recomputation together. -/
theorem Moves.recomputed (hmoves : Moves platform observation state config decision nextState)
    (h : Recomputed platform.halfPow config log state) :
    Recomputed platform.halfPow config (log ++ [logEntry observation state config]) nextState := by
  cases hmoves with
  | coldStart verdict =>
    have hentry : logEntry observation state config = ⟨observation, .coldStart, none⟩ := by
      simp [logEntry, verdict]
    rw [hentry]
    constructor
    · exact venueRecomputed_cleared rfl rfl
    · rw [gapSamples_concat, gapSample_eq_none rfl]
      exact basisRecomputed_nil rfl rfl rfl rfl
  | rejected reason verdict =>
    have hrow : (logEntry observation state config).row = none :=
      logEntry_of_not_pass fun fvReset hpass => by
        rw [hpass] at verdict
        cases verdict
    have hstands : (logEntry observation state config).verdict.isRejected = true := verdict
    have hadmitted : (logEntry observation state config).admitted = false := by
      simp [LogEntry.admitted, hrow]
    generalize logEntry observation state config = entry at hrow hstands hadmitted ⊢
    have hresets : entry.resetsVenue = false ∧ entry.resetsBasis = false := by
      cases hverdict : entry.verdict with
      | coldStart | reconnect | pass fvReset =>
        rw [hverdict] at hstands
        cases hstands
      | clockRegression | epochRegression | stale =>
        simp [LogEntry.resetsVenue, LogEntry.resetsBasis, LogEntry.reseeds, hverdict, hrow]
    constructor
    · exact h.venue.kept hresets.1 hadmitted
    · rw [gapSamples_concat, gapSample_eq_none hadmitted, hresets.2]
      simpa using h.basis
  | reconnect verdict =>
    have hentry : logEntry observation state config = ⟨observation, .reconnect, none⟩ := by
      simp [logEntry, verdict]
    rw [hentry]
    exact recomputed_reset rfl rfl
  | reset fvReset verdict row =>
    rw [logEntry_of_pass verdict row]
    exact recomputed_reset rfl rfl
  | event fvReset reason verdict row => exact h.untrained verdict row (.inl rfl) (by simp) rfl
  | degraded fvReset reasons verdict row =>
    exact h.untrained verdict row (.inr (.inl rfl)) (by simp) rfl
  | cooling fvReset verdict row => exact h.untrained verdict row (.inr (.inr rfl)) (by simp) rfl
  | healthy fvReset row decision verdict classified admits =>
    rw [logEntry_of_pass verdict classified]
    set entry : LogEntry := ⟨observation, .pass fvReset, some row⟩ with hentry
    have hadmitted : entry.admitted = true := by
      rcases admits with rfl | rfl | rfl <;> rfl
    have hresets : entry.resetsVenue = false := by
      rcases admits with rfl | rfl | rfl <;> rfl
    have hvenue : (accept observation state config false fvReset).venue = state.venue := by simp
    constructor
    · rw [admitHealthy_venue]
      have htrained : VenueRecomputed platform.halfPow config _ (admitVenueUpdates platform.halfPow
          entry.observation _ config).venue := .trained (hvenue ▸ h.venue) hresets hadmitted
      exact htrained
    · have hbasis : entry.resetsBasis = fvReset := by
        rw [LogEntry.resetsBasis, hresets]
        cases fvReset <;> rfl
      rw [gapSamples_concat, hbasis]
      have hbase : BasisRecomputed platform.halfPow config
          (if fvReset then [] else gapSamples config log)
          (admitVenueUpdates platform.halfPow observation
            (accept observation state config false fvReset) config) :=
        (h.basis.accept fvReset).of_basisFields rfl
      have htrained : BasisRecomputed platform.halfPow config _ (admitBasisUpdates platform.halfPow
          entry.observation _ config) := hbase.trained hadmitted
      exact htrained.of_basisFields rfl

/-! ## Every run -/

theorem frameLog_concat {frames : List Frame} (observation : StrategyObservation)
    (h : StrategyRun platform config sessionId state frames nextState) :
    frameLog platform config sessionId state (frames.map Prod.fst ++ [observation]) =
      frameLog platform config sessionId state (frames.map Prod.fst) ++
        [logEntry observation nextState config] := by
  induction frames generalizing state with
  | nil =>
    obtain rfl := h.nil_inv
    rfl
  | cons frame frames ih =>
    obtain ⟨middle, hstep, hrest⟩ := h.cons_inv
    have hdecide : decideFrame platform frame.1 state config sessionId = .ok (frame.2, middle) :=
      hstep
    simp only [List.map_cons, List.cons_append, frameLog, hdecide]
    rw [ih hrest]

theorem recomputed_of_run {frames : List Frame}
    (h : StrategyRun platform config sessionId {} frames state) :
    Recomputed platform.halfPow config
      (frameLog platform config sessionId {} (frames.map Prod.fst)) state := by
  induction h with
  | nil => exact recomputed_init
  | snoc run last ih =>
    obtain ⟨raw, hmoves, -⟩ := DecideStep.moves last
    rw [List.map_append, List.map_singleton, frameLog_concat _ run]
    exact hmoves.recomputed ih

/-- **Online is batch**: the state a run of `decide` leaves is the recomputation from its log. A frame
that is not admitted contributes nothing to it, but for the mid that seeds the smoother. -/
theorem runs_recomputed {frames : List Frame} {last : StrategyState}
    (h : StrategyRun platform config sessionId {} frames last) :
    let log := frameLog platform config sessionId {} (frames.map Prod.fst)
    last.smootherMid = smootherOver platform.halfPow config (midSamples log) ∧
      last.spreadRefSamples = lastN (spreadSamples log) config.rollingSpreadWindow ∧
      last.depthRefSamples = lastN (depthSamples log) config.rollingDepthWindow ∧
      last.basisSampleCount = (gapSamples config log).length ∧
      basisFromState platform.halfPow last config =
        basis platform.halfPow (gapSamples config log) config ∧
      ∀ entry ∈ log, entry.admitted = false →
        entry.spreadSample = none ∧ entry.depthSample = none ∧ entry.gapSample config = none ∧
          (entry.reseeds = false → entry.midSample = none) := by
  obtain ⟨hvenue, hbasis⟩ := recomputed_of_run h
  refine ⟨hvenue.smoother, hvenue.spreads, hvenue.depths, hbasis.count, hbasis.basisFromState_eq,
    fun entry _ hadmitted => ⟨?_, ?_, gapSample_eq_none hadmitted, fun hseeds => ?_⟩⟩
  · simp [LogEntry.spreadSample, hadmitted]
  · simp [LogEntry.depthSample, hadmitted]
  · simp [LogEntry.midSample, hadmitted, hseeds]

/-- Of three guarded frames the cold start trains nothing; the other two are the references, and their
gaps from the fair value the basis. -/
theorem runs_recomputed_guarded : ∃ (frames : List Frame) (last : StrategyState),
    frames.map Prod.fst = [fairFrame 0 0, fairFrame 1 1, fairFrame 2 2] ∧
    StrategyRun flatPlatform (promptConfig true) "" {} frames last ∧
    last.spreadRefSamples = [4 / 100, 4 / 100] ∧ last.basisSampleCount = 2 ∧
    basisFromState flatPlatform.halfPow last (promptConfig true) = .ok 0 := by
  obtain ⟨frames, last, hobservations, hrun⟩ := exists_run flatPlatform (promptConfig true) ""
    [fairFrame 0 0, fairFrame 1 1, fairFrame 2 2]
  obtain ⟨-, hspreads, -, hcount, hbasis, -⟩ := runs_recomputed hrun
  rw [hobservations] at hspreads hcount hbasis
  refine ⟨frames, last, hobservations, hrun, ?_, ?_, ?_⟩
  · rw [hspreads]
    decide +kernel
  · rw [hcount]
    decide +kernel
  · rw [hbasis]
    decide +kernel

end Veridex.MmStrategy
