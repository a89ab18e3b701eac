import Veridex.Runtime.FinalizeRetry
import Veridex.Runtime.LiveRunner

/-!
# An observer that raises while ticks are fed (`runtime/live_runner.py`, `runtime/orchestrator.py`)

`_emit` keeps an event before it asks the sink, and `feed` uses up its number after. Where the sink
raises, the live runner goes on to seal a run whose last event and next number are one number: the
window's configuration is emitted under it again, and the hash refuses two events of one number.

Results: `emitTo_ok`, `feedTo_ok` (a sink that accepts everything), `sealWindow_stuck` (a run that was
left so), `failing_observer_costs_run`.
-/

namespace Veridex.Runtime

open Veridex.Py Veridex.Lib Veridex.Law Veridex.Scoring Veridex.Ingest Veridex.Verifier

variable {format : Json.FloatFormat PyFloat} {sha256 : List Char → String} {sink : Sink}

/-! ## What the sink accepts -/

theorem emitTo_ok {run run' : CompetitionRun} {body : EventBody}
    (h : run.emitTo sink body = .ok run') : run' = run.emit body := by
  unfold CompetitionRun.emitTo at h
  split at h
  · simp at h
  · exact (Except.ok.inj h).symm

theorem recordTo_ok {snapshot : MarketState} {run run' : CompetitionRun} {result : Agent × Outcome}
    (h : run.recordTo format sink snapshot result = .ok run') :
    run' = run.record format snapshot result := by
  obtain ⟨emitted, hemitted, h⟩ := bind_eq_ok.mp h
  obtain rfl := emitTo_ok hemitted
  obtain ⟨agent, outcome⟩ := result
  cases outcome <;> exact (Except.ok.inj h).symm

theorem recordsTo_ok {snapshot : MarketState} {results : List (Agent × Outcome)} :
    ∀ {run run' : CompetitionRun},
      results.foldlM (CompetitionRun.recordTo format sink snapshot) run = .ok run' →
        run' = results.foldl (CompetitionRun.record format snapshot) run := by
  induction results with
  | nil => exact fun h => (Except.ok.inj h).symm
  | cons result results ih =>
    intro run run' h
    rw [List.foldlM_cons] at h
    obtain ⟨middle, hmiddle, h⟩ := bind_eq_ok.mp h
    rw [ih h, recordTo_ok hmiddle, List.foldl_cons]

theorem tickTo_ok {run run' : CompetitionRun} {snapshot : MarketState}
    (h : run.tickTo format sink snapshot = .ok run') : run' = run.tick format snapshot :=
  emitTo_ok h

/-- **An accepted `feed`** is a `feed`. -/
theorem feedTo_ok {run run' : CompetitionRun} {snapshot : MarketState}
    {results : List (Agent × Outcome)} (h : run.feedTo format sink snapshot results = .ok run') :
    run.feed format snapshot results = .ok run' := by
  unfold CompetitionRun.feedTo at h
  unfold CompetitionRun.feed
  split_ifs at h ⊢
  obtain ⟨ticked, hticked, h⟩ := bind_eq_ok.mp h
  rw [recordsTo_ok h, tickTo_ok hticked]

theorem feedClosingTo_ok {run run' : CompetitionRun} {snapshot : MarketState}
    (h : run.feedClosingTo format sink snapshot = .ok run') :
    run.feedClosing format snapshot = .ok run' := by
  unfold CompetitionRun.feedClosingTo at h
  unfold CompetitionRun.feedClosing
  split_ifs at h ⊢
  rw [tickTo_ok h]

theorem sealWindowTo_ok {run run' : CompetitionRun} {window : Option RunWindow}
    (h : run.sealWindowTo format sink window = .ok run') : run' = run.sealWindow format window := by
  cases window with
  | none => exact (Except.ok.inj h).symm
  | some window =>
    cases hclose : windowEndTs (some window) run.snapshots with
    | none =>
      simp only [CompetitionRun.sealWindowTo, hclose] at h
      simp only [CompetitionRun.sealWindow, hclose]
      exact (Except.ok.inj h).symm
    | some close =>
      simp only [CompetitionRun.sealWindowTo, hclose] at h
      simp only [CompetitionRun.sealWindow, hclose]
      exact emitTo_ok h

/-! ## What it leaves where it raises -/

/-- The next number is one an event has, and a snapshot was taken in. -/
structure Stuck (run : CompetitionRun) : Prop where
  used : ∃ event ∈ run.rawEvents, event.sequenceNo = run.sequenceNo
  fed : run.snapshots ≠ []

theorem emitTo_stuck {run : CompetitionRun} {body : EventBody} {raised : Raised}
    (h : run.emitTo sink body = .error raised) (hfed : run.snapshots ≠ []) : Stuck raised.run := by
  unfold CompetitionRun.emitTo at h
  split at h
  · obtain rfl := Except.error.inj h
    exact ⟨⟨_, List.mem_append_right _ (List.mem_singleton_self _), rfl⟩, hfed⟩
  · simp at h

theorem recordsTo_stuck {snapshot : MarketState} {results : List (Agent × Outcome)}
    {raised : Raised} : ∀ {run : CompetitionRun}, run.snapshots ≠ [] →
      results.foldlM (CompetitionRun.recordTo format sink snapshot) run = .error raised →
        Stuck raised.run := by
  induction results with
  | nil => exact fun _ h => nomatch h
  | cons result results ih =>
    intro run hfed h
    rw [List.foldlM_cons] at h
    rcases bind_eq_error.mp h with hrecord | ⟨middle, hmiddle, hrest⟩
    · rcases bind_eq_error.mp hrecord with hemit | ⟨emitted, -, hafter⟩
      · exact emitTo_stuck hemit hfed
      · obtain ⟨agent, outcome⟩ := result
        cases outcome <;> exact nomatch hafter
    · obtain rfl := recordTo_ok hmiddle
      refine ih ?_ hrest
      obtain ⟨agent, outcome⟩ := result
      cases outcome <;> exact hfed

/-- A `feed` that raises leaves the run stuck, or was made on a sealed one. -/
theorem feedTo_stuck {run : CompetitionRun} {snapshot : MarketState}
    {results : List (Agent × Outcome)} {raised : Raised}
    (h : run.feedTo format sink snapshot results = .error raised) :
    Stuck raised.run ∨ raised.run.finalized = true := by
  unfold CompetitionRun.feedTo at h
  split_ifs at h with hfinalized
  · obtain rfl := Except.error.inj h
    exact .inr hfinalized
  · left
    rcases bind_eq_error.mp h with htick | ⟨ticked, hticked, hrecords⟩
    · exact emitTo_stuck htick (by simp)
    · obtain rfl := tickTo_ok hticked
      exact recordsTo_stuck (by simp [CompetitionRun.tick, CompetitionRun.emit]) hrecords

/-! ## The seal of such a run -/

/-- Two events of one number have no hash. -/
theorem computeEvidenceHash_duplicate {events : List RunEvent}
    (h : ¬ (events.map RunEvent.sequenceNo).Nodup) :
    ∃ e, computeEvidenceHash format sha256 (events.map RunEvent.toDict) = .error e := by
  have hkeys : ((sortBySequence (events.map RunEvent.toDict)).map sequenceKey).Perm
      (events.map RunEvent.sequenceNo) := by
    refine ((List.mergeSort_perm _ _).map sequenceKey).trans ?_
    rw [List.map_map]
    exact List.Perm.refl _
  rw [computeEvidenceHash]
  split_ifs
  · exact ⟨_, rfl⟩
  · cases hduplicate : firstDuplicate []
      ((sortBySequence (events.map RunEvent.toDict)).map sequenceKey) with
    | none =>
      exact absurd (hkeys.nodup_iff.mp (firstDuplicate_eq_none.mp hduplicate).1) h
    | some seq => exact ⟨⟨.valueError, "duplicate sequence_no: " ++ toString seq⟩, by simp [hduplicate]⟩

theorem sealWindow_stuck {run : CompetitionRun} (h : Stuck run) (window : RunWindow) :
    ∃ e, computeEvidenceHash format sha256
      ((run.sealWindow format (some window)).rawEvents.map RunEvent.toDict) = .error e := by
  apply computeEvidenceHash_duplicate
  obtain ⟨event, hevent, hnumber⟩ := h.used
  have hlast := List.getLast?_eq_getLast_of_ne_nil h.fed
  have hevents : (run.sealWindow format (some window)).rawEvents.map RunEvent.sequenceNo =
      run.rawEvents.map RunEvent.sequenceNo ++ [run.sequenceNo] := by
    simp [CompetitionRun.sealWindow, windowEndTs, hlast, CompetitionRun.emit]
  rw [hevents, List.nodup_append]
  rintro ⟨-, -, hdisjoint⟩
  exact hdisjoint event.sequenceNo (List.mem_map_of_mem hevent) run.sequenceNo
    (List.mem_singleton_self _) hnumber

theorem finalizeTo_stuck {run : CompetitionRun} (h : Stuck run ∨ run.finalized = true)
    (window : RunWindow) (persist : Except PyExc Unit) :
    ∃ e, run.finalizeTo format sink sha256 (some window) persist = .error e := by
  unfold CompetitionRun.finalizeTo
  split_ifs with hfinalized
  · exact ⟨_, rfl⟩
  · have hstuck := h.resolve_right hfinalized
    cases hsealed : run.sealWindowTo format sink (some window) with
    | error raised => exact ⟨raised.error, rfl⟩
    | ok sealedRun =>
      obtain rfl := sealWindowTo_ok hsealed
      obtain ⟨e, he⟩ := @sealWindow_stuck format sha256 run hstuck window
      have hresult : (run.sealWindow format (some window)).result format sha256
          (some (RunWindow.stamp run.snapshots window)) = .error e :=
        bind_eq_error.mpr (.inl he)
      exact ⟨e, bind_eq_error.mpr (.inr ⟨_, rfl, bind_eq_error.mpr (.inl hresult)⟩)⟩

/-! ## The window -/

/-- The sink raises while a tick is fed: the loop is interrupted, whatever the stream does at its
end. -/
def LiveInputs.SinkRaises (format : Json.FloatFormat PyFloat) (inputs : LiveInputs) : Prop :=
  ∃ e, (liveLoop format inputs.answers inputs.window .finished inputs.start inputs.arrivals).2 =
    .interrupted e

theorem closesOn_ne_interrupted (window : LiveWindow) (state : LoopState) (tick : MarketState)
    (e : PyExc) : closesOn window state tick ≠ some (.interrupted e) := by
  unfold closesOn
  split_ifs
  · simp
  · split
    · split_ifs <;> simp
    · simp

/-- Where the loop is interrupted by the sink, its run is stuck, and the stream's end is not
reached. -/
theorem liveLoop_stuck {window : LiveWindow} {streamEnd : StreamEnd} {arrivals : List Arrival}
    {e : PyExc} : ∀ {state : LoopState},
      (liveLoop format sink window .finished state arrivals).2 = .interrupted e →
        (Stuck (liveLoop format sink window streamEnd state arrivals).1.run ∨
          (liveLoop format sink window streamEnd state arrivals).1.run.finalized = true) ∧
        (liveLoop format sink window streamEnd state arrivals).2 = .interrupted e := by
  induction arrivals with
  | nil => exact fun h => nomatch h
  | cons arrival arrivals ih =>
    intro state h
    rw [liveLoop] at h
    rw [liveLoop]
    by_cases hstop : (window.endRule = .manualStop && arrival.stopSet) = true
    · rw [if_pos hstop] at h
      exact nomatch h
    · rw [if_neg hstop] at h
      rw [if_neg hstop]
      by_cases hfixture : arrival.tick.fixtureId ≠ window.fixtureId
      · rw [if_pos hfixture] at h
        rw [if_pos hfixture]
        exact ih h
      · rw [if_neg hfixture] at h
        rw [if_neg hfixture]
        cases hclose : closesOn window state arrival.tick with
        | some loopEnd =>
          simp only [hclose] at h
          exact absurd (hclose.trans (congrArg some h)) (closesOn_ne_interrupted _ _ _ _)
        | none =>
          cases hfeed : state.feedTick format sink window arrival with
          | ok state' =>
            simp only [hclose, hfeed] at h ⊢
            exact ih h
          | error raised =>
            simp only [hclose, hfeed] at h ⊢
            refine ⟨?_, h⟩
            rcases bind_eq_error.mp hfeed with hfed | ⟨run, -, hafter⟩
            · exact feedTo_stuck hfed
            · exact nomatch hafter

theorem closeWindow_interrupted {str : Decoded → String} {window : LiveWindow} {state : LoopState}
    {e : PyExc} {fetched : Except PyExc (List Params)} {run : CompetitionRun} {ops : Ops}
    {effective : RunWindow}
    (h : closeWindow format sink str window state (.interrupted e) fetched =
      .ok (run, ops, effective)) : run = state.run ∧ state.fedAny = true := by
  rw [closeWindow] at h
  split_ifs at h with hfed
  · have hrun := congrArg Prod.fst (Except.ok.inj h)
    exact ⟨hrun.symm, by simpa using hfed⟩
  · have hrun := congrArg Prod.fst (Except.ok.inj h)
    exact ⟨hrun.symm, by simpa using hfed⟩

/-- A window that is returned was not interrupted by its sink. -/
theorem not_sinkRaises_of_ok {str : Decoded → String} {inputs : LiveInputs} {bundle : LiveRunResult}
    (h : runLiveWindow format sha256 str inputs = .ok bundle) : ¬ inputs.SinkRaises format := by
  rintro ⟨e, he⟩
  obtain ⟨hstuck, hinterrupted⟩ := @liveLoop_stuck format inputs.answers inputs.window
    inputs.streamEnd inputs.arrivals e inputs.start he
  change Stuck (inputs.loop format).1.run ∨ (inputs.loop format).1.run.finalized = true at hstuck
  change (inputs.loop format).2 = .interrupted e at hinterrupted
  obtain ⟨⟨run, ops, window⟩, hclosed, h⟩ := bind_eq_ok.mp h
  obtain ⟨result, hresult, -⟩ := bind_eq_ok.mp h
  change closeWindow format inputs.answers str inputs.window (inputs.loop format).1
    (inputs.loop format).2 inputs.fetched = _ at hclosed
  rw [hinterrupted] at hclosed
  obtain ⟨rfl, -⟩ := closeWindow_interrupted hclosed
  obtain ⟨e', he'⟩ := @finalizeTo_stuck format sha256 inputs.answers _ hstuck window inputs.persist
  exact nomatch hresult.symm.trans he'

/-- **No window survives** a sink that raises while a tick is fed: the call raises. -/
theorem failing_observer_costs_run (str : Decoded → String) (inputs : LiveInputs)
    (h : inputs.SinkRaises format) :
    ∃ e, runLiveWindow format sha256 str inputs = .error e := by
  cases hrun : runLiveWindow format sha256 str inputs with
  | error e => exact ⟨e, rfl⟩
  | ok bundle => exact absurd h (not_sinkRaises_of_ok hrun)

/-- What a sealed window keeps of what its sink accepted: numbers without a gap, every event that was
accepted, in order, and no numeric value. -/
structure Survives (format : Json.FloatFormat PyFloat) (inputs : LiveInputs)
    (bundle : LiveRunResult) : Prop where
  numbered : bundle.run.runEvents.map (·.sequenceNo) =
    (List.range bundle.run.runEvents.length).map (Nat.cast : ℕ → ℤ)
  accepted : ∀ log, (inputs.loop format).1.run.sink = some log → log.Sublist bundle.run.runEvents
  unvalued : ∀ row ∈ bundle.run.scoreRows, (field row "clv_bps").number = none

section Witness

/-- A window over two ticks whose sink raises on the second one. -/
def observedInputs : LiveInputs where
  window := { windowId := "w", endRule := .manualStop, fixtureId := 7, marketAllowlist := [] }
  agents := []
  runId := "r"
  sink := some fun call => if call = 1 then some ⟨.exception, "observer is down"⟩ else none
  arrivals := [{ tick := bareSnapshot, decide := fun _ => .noAction },
    { tick := bareSnapshot, decide := fun _ => .noAction }]
  fetched := .ok []

theorem observedInputs_raises : observedInputs.SinkRaises ratioFormat := ⟨_, rfl⟩

theorem failing_observer_costs_run_second : ∃ e,
    runLiveWindow ratioFormat String.ofList (fun _ => "") observedInputs = .error e :=
  failing_observer_costs_run _ _ observedInputs_raises

/-- One tick was fed, the next one's event was refused, and the run is lost. -/
theorem second_tick_refused :
    ¬ ∀ (format : Json.FloatFormat PyFloat) (sha256 : List Char → String) (str : Decoded → String)
      (inputs : LiveInputs), inputs.SinkRaises format → (inputs.loop format).1.fedAny = true →
      inputs.answers (inputs.loop format).1.run.rawEvents.length = none →
        ∃ bundle, runLiveWindow format sha256 str inputs = .ok bundle ∧
          Survives format inputs bundle := by
  intro hclaim
  obtain ⟨bundle, hbundle, -⟩ := hclaim ratioFormat String.ofList (fun _ => "") observedInputs
    observedInputs_raises rfl rfl
  exact not_sinkRaises_of_ok hbundle observedInputs_raises

end Witness

end Veridex.Runtime
