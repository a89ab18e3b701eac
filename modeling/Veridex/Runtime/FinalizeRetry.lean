import Veridex.Runtime.Orchestrator

/-!
# Sealing again after a failed persist (`runtime/orchestrator.py`)

`finalize` sets its guard after the store has persisted, so that a failed persist can be tried again.
A windowed run emits its configuration event on every attempt, before the store is asked: the events
of the attempt that succeeds hold one more of it for each that failed, and so differ from those the
first attempt would have sealed.

* `CompetitionRun.Consistent`: the numbers count the events, and the sink was given each of them.
* `retry_eq_first_iff`: the retried seal is the first one's, unless a window was fed and an attempt
  failed.
-/

namespace Veridex.Runtime

open Veridex.Py Veridex.Lib Veridex.Law Veridex.Scoring

variable {format : Json.FloatFormat PyFloat} {sha256 : List Char → String}

/-! ## What every call keeps -/

/-- The numbers count the events, and the sink was given each event once, in order. -/
structure CompetitionRun.Consistent (run : CompetitionRun) : Prop where
  numbered : run.rawEvents.map (·.sequenceNo) =
    (List.range run.rawEvents.length).map (Nat.cast : ℕ → ℤ)
  next : run.sequenceNo = run.rawEvents.length
  received : ∀ log, run.sink = some log → log = run.rawEvents

namespace CompetitionRun.Consistent

variable {run run' : CompetitionRun}

theorem emit (h : run.Consistent) (body : EventBody) : (run.emit body).Consistent where
  numbered := by
    simp only [CompetitionRun.emit, List.map_append, List.length_append, List.length_singleton,
      List.range_succ, h.numbered, h.next, List.map_singleton]
  next := by simp [CompetitionRun.emit, h.next]
  received := by
    intro log hlog
    obtain ⟨before, hbefore, rfl⟩ := Option.map_eq_some_iff.mp hlog
    rw [h.received before hbefore]
    rfl

theorem tick (h : run.Consistent) (snapshot : MarketState) :
    (run.tick format snapshot).Consistent := by
  have hfed : { run with snapshots := run.snapshots ++ [snapshot] }.Consistent :=
    ⟨h.numbered, h.next, h.received⟩
  exact hfed.emit _

theorem record (h : run.Consistent) (snapshot : MarketState) (result : Agent × Outcome) :
    (run.record format snapshot result).Consistent := by
  obtain ⟨agent, outcome⟩ := result
  cases outcome with
  | acted action =>
    have hemit := h.emit (outcomeBody format agent (.acted action))
    exact ⟨hemit.numbered, hemit.next, hemit.received⟩
  | noAction => exact h.emit _
  | failed error message => exact h.emit _

theorem records (h : run.Consistent) (snapshot : MarketState) (results : List (Agent × Outcome)) :
    (results.foldl (CompetitionRun.record format snapshot) run).Consistent := by
  induction results generalizing run with
  | nil => exact h
  | cons result results ih => exact ih (h.record snapshot result)

/-- A call keeps the numbers and the sink. -/
theorem call (h : run.Consistent) {call : Call} (hcall : run.call format call = .ok run') :
    run'.Consistent := by
  cases call with
  | feed snapshot results =>
    simp only [CompetitionRun.call, feed] at hcall
    split_ifs at hcall
    obtain rfl := Except.ok.inj hcall
    exact (h.tick snapshot).records snapshot results
  | feedClosing snapshot =>
    simp only [CompetitionRun.call, feedClosing] at hcall
    split_ifs at hcall
    obtain rfl := Except.ok.inj hcall
    exact h.tick snapshot

/-- **Every sequence of calls** keeps them. -/
theorem calls (h : run.Consistent) {calls : List Call} (hcalls : run.calls format calls = .ok run') :
    run'.Consistent := by
  induction calls generalizing run with
  | nil =>
    obtain rfl := Except.ok.inj hcalls
    exact h
  | cons call calls ih =>
    obtain ⟨middle, hcall, hrest⟩ := bind_eq_ok.mp hcalls
    exact ih (h.call hcall) hrest

theorem start (agents : List Agent) (sourceMode : SourceMode) (runId : String) (hasSink : Bool) :
    (CompetitionRun.start agents sourceMode runId hasSink).Consistent where
  numbered := rfl
  next := rfl
  received := by
    intro log hlog
    cases hasSink with
    | false => simp [CompetitionRun.start] at hlog
    | true =>
      obtain rfl : [] = log := by simpa [CompetitionRun.start] using hlog
      rfl

theorem sealWindow (h : run.Consistent) (window : Option RunWindow) :
    (run.sealWindow format window).Consistent := by
  unfold CompetitionRun.sealWindow
  split
  · exact h.emit _
  · exact h

/-- The events' numbers increase. -/
theorem increasing (h : run.Consistent) :
    run.rawEvents.Pairwise fun a b => a.sequenceNo < b.sequenceNo := by
  have hrange : ((List.range run.rawEvents.length).map (Nat.cast : ℕ → ℤ)).Pairwise (· < ·) := by
    rw [List.pairwise_map]
    exact List.pairwise_lt_range.imp fun hlt => by exact_mod_cast hlt
  rw [← h.numbered] at hrange
  exact List.pairwise_map.mp hrange

theorem sequenceNo_toDict (event : RunEvent) :
    Runtime.sequenceNo event.toDict = some event.sequenceNo := rfl

/-- The emitted events always hash. -/
theorem evidenceHash (h : run.Consistent) :
    computeEvidenceHash format sha256 (run.rawEvents.map RunEvent.toDict) =
      .ok (sha256 (serializePayload format
        (.arr ((run.rawEvents.map RunEvent.toDict).map .obj)))) := by
  apply computeEvidenceHash_increasing format sha256 (List.Perm.refl _)
  · unfold Increasing
    rw [List.map_map, List.pairwise_map]
    refine h.increasing.imp fun {a b} hlt => ?_
    simp only [Function.comp_apply, sequenceKey, sequenceNo_toDict, Option.getD_some]
    exact hlt
  · intro event hevent
    obtain ⟨sealedEvent, -, rfl⟩ := List.mem_map.mp hevent
    rw [sequenceNo_toDict]
    rfl

end CompetitionRun.Consistent

/-! ## Attempts -/

section

variable (format sha256)

/-- `finalize` tried again after each failed persist, up to the attempt whose persist returns. -/
def CompetitionRun.retry (run : CompetitionRun) (window : Option RunWindow) :
    List PyExc → Except PyExc RunResult × CompetitionRun × Option RunWindow
  | [] => run.finalize format sha256 window (.ok ())
  | e :: failures =>
    let (_, run, window) := run.finalize format sha256 window (.error e)
    run.retry window failures

end

variable {run : CompetitionRun} {window : Option RunWindow}

theorem finalize_error (hopen : run.finalized = false) (e : PyExc) :
    (run.finalize format sha256 window (.error e)).2 =
      (run.sealWindow format window, window.map (RunWindow.stamp run.snapshots)) := by
  simp only [CompetitionRun.finalize, hopen, Bool.false_eq_true, if_false]
  cases (run.sealWindow format window).result format sha256
    (window.map (RunWindow.stamp run.snapshots)) <;> rfl

/-- A seal that returns seals the emitted events. -/
theorem result_ok {result : RunResult} (h : run.result format sha256 window = .ok result) :
    result.runEvents = run.rawEvents := by
  obtain ⟨evidenceHash, -, h⟩ := bind_eq_ok.mp h
  obtain ⟨rows, -, h⟩ := bind_eq_ok.mp h
  obtain rfl := Except.ok.inj h
  rfl

theorem finalize_ok {result : RunResult} {run' : CompetitionRun} {window' : Option RunWindow}
    (h : run.finalize format sha256 window (.ok ()) = (.ok result, run', window')) :
    (run.sealWindow format window).result format sha256
      (window.map (RunWindow.stamp run.snapshots)) = .ok result ∧
      run' = { run.sealWindow format window with finalized := true } := by
  unfold CompetitionRun.finalize at h
  split_ifs at h
  · simp at h
  · simp only at h
    split at h
    · simp at h
    · simp at h
    · rename_i sealedResult _ hsealed _
      simp only [Prod.mk.injEq, Except.ok.injEq] at h
      exact ⟨by rw [hsealed, h.1], h.2.1.symm⟩

@[simp] theorem sealWindow_snapshots (window : Option RunWindow) :
    (run.sealWindow format window).snapshots = run.snapshots := by
  unfold CompetitionRun.sealWindow
  split <;> rfl

@[simp] theorem sealWindow_finalized (window : Option RunWindow) :
    (run.sealWindow format window).finalized = run.finalized := by
  unfold CompetitionRun.sealWindow
  split <;> rfl

/-- An attempt adds an event exactly where there is a window and a snapshot was fed. -/
theorem sealWindow_length (window : Option RunWindow) :
    (run.sealWindow format window).rawEvents.length =
      run.rawEvents.length + if window.isSome ∧ run.snapshots ≠ [] then 1 else 0 := by
  unfold CompetitionRun.sealWindow windowEndTs
  cases window with
  | none => simp
  | some window =>
    cases hlast : run.snapshots.getLast? with
    | none => simp [List.getLast?_eq_none_iff.mp hlast]
    | some last =>
      have hne : run.snapshots ≠ [] := by
        intro hnil
        simp [hnil] at hlast
      simp [hne, CompetitionRun.emit]

/-- The retried seal's events: one configuration event for each attempt of a windowed run. -/
theorem retry_length {failures : List PyExc} : ∀ {run : CompetitionRun} {window : Option RunWindow}
    {result : RunResult} {run' : CompetitionRun} {window' : Option RunWindow},
    run.finalized = false →
    run.retry format sha256 window failures = (.ok result, run', window') →
      result.runEvents.length = run.rawEvents.length +
        (failures.length + 1) * if window.isSome ∧ run.snapshots ≠ [] then 1 else 0 := by
  induction failures with
  | nil =>
    intro run window result run' window' _ h
    rw [CompetitionRun.retry] at h
    obtain ⟨hresult, -⟩ := finalize_ok h
    rw [result_ok hresult, sealWindow_length]
    simp
  | cons e failures ih =>
    intro run window result run' window' hopen h
    have hafter := @finalize_error format sha256 run window hopen e
    rw [CompetitionRun.retry] at h
    simp only [hafter] at h
    rw [ih (by simpa using hopen) h, sealWindow_length, sealWindow_snapshots]
    by_cases hwindow : window.isSome ∧ run.snapshots ≠ []
    · simp [hwindow.1, hwindow.2]
      omega
    · have hmap : ¬ ((window.map (RunWindow.stamp run.snapshots)).isSome ∧ run.snapshots ≠ []) := by
        simpa using hwindow
      rw [if_neg hwindow, if_neg hmap]
      omega

/-- An attempt of a run that is not windowed leaves it as it is. -/
theorem retry_eq_finalize {failures : List PyExc} (hopen : run.finalized = false)
    (hplain : window = none ∨ run.snapshots = []) :
    run.retry format sha256 window failures = run.finalize format sha256 window (.ok ()) := by
  have hseal : run.sealWindow format window = run := by
    unfold CompetitionRun.sealWindow windowEndTs
    rcases hplain with rfl | hnil
    · rfl
    · cases window <;> simp [hnil]
  have hstamp : window.map (RunWindow.stamp run.snapshots) = window := by
    rcases hplain with rfl | hnil
    · rfl
    · cases window <;> simp [hnil, RunWindow.stamp]
  induction failures with
  | nil => rfl
  | cons e failures ih =>
    have hafter := @finalize_error format sha256 run window hopen e
    rw [hseal, hstamp] at hafter
    rw [CompetitionRun.retry]
    simp only [hafter]
    exact ih

theorem calls_finalized {run' : CompetitionRun} {calls : List Call}
    (hopen : run.finalized = false) (h : run.calls format calls = .ok run') :
    run'.finalized = false := by
  have hrecords : ∀ (results : List (Agent × Outcome)) (snapshot : MarketState)
      (run : CompetitionRun), run.finalized = false →
      (results.foldl (CompetitionRun.record format snapshot) run).finalized = false := by
    intro results snapshot
    induction results with
    | nil => exact fun _ hrun => hrun
    | cons result results ih =>
      intro run hrun
      obtain ⟨agent, outcome⟩ := result
      cases outcome <;> exact ih _ hrun
  induction calls generalizing run with
  | nil =>
    obtain rfl := Except.ok.inj h
    exact hopen
  | cons call calls ih =>
    obtain ⟨middle, hcall, hrest⟩ := bind_eq_ok.mp h
    refine ih ?_ hrest
    cases call with
    | feed snapshot results =>
      simp only [CompetitionRun.call, CompetitionRun.feed] at hcall
      split_ifs at hcall
      obtain rfl := Except.ok.inj hcall
      exact hrecords results snapshot _ hopen
    | feedClosing snapshot =>
      simp only [CompetitionRun.call, CompetitionRun.feedClosing] at hcall
      split_ifs at hcall
      obtain rfl := Except.ok.inj hcall
      exact hopen

/-- A later seal is the first one's: its events, its hash and its rows, and the sink was given each
sealed event once, in the order of their numbers. -/
structure SealedAlike (first last : RunResult) (run : CompetitionRun) : Prop where
  runEvents : last.runEvents = first.runEvents
  evidenceHash : last.evidenceHash = first.evidenceHash
  scoreRows : last.scoreRows = first.scoreRows
  received : ∀ log, run.sink = some log → log = last.runEvents
  inOrder : last.runEvents.Pairwise fun a b => a.sequenceNo < b.sequenceNo

/-- **A seal that is tried again** after failed persists is the one the first attempt would have made,
exactly where there is no window, no snapshot was fed or no attempt failed. -/
theorem retry_eq_first_iff {agents : List Agent} {sourceMode : SourceMode} {runId : String}
    {hasSink : Bool} {calls : List Call} {failures : List PyExc} {first : RunResult}
    {runFirst : CompetitionRun} {windowFirst : Option RunWindow}
    (hcalls : (CompetitionRun.start agents sourceMode runId hasSink).calls format calls = .ok run)
    (hfirst : run.finalize format sha256 window (.ok ()) = (.ok first, runFirst, windowFirst)) :
    (∃ last run' window',
      run.retry format sha256 window failures = (.ok last, run', window') ∧
        SealedAlike first last run') ↔
      window = none ∨ run.snapshots = [] ∨ failures = [] := by
  have hopen : run.finalized = false := calls_finalized rfl hcalls
  have hconsistent : run.Consistent := (CompetitionRun.Consistent.start _ _ _ _).calls hcalls
  constructor
  · rintro ⟨last, run', window', hlast, halike⟩
    have hlength := retry_length hopen hlast
    rw [halike.runEvents, result_ok (finalize_ok hfirst).1, sealWindow_length] at hlength
    by_contra hnot
    simp only [not_or] at hnot
    obtain ⟨hwindow, hsnapshots, hfailures⟩ := hnot
    have hsome : window.isSome ∧ run.snapshots ≠ [] :=
      ⟨Option.isSome_iff_ne_none.mpr hwindow, hsnapshots⟩
    rw [if_pos hsome] at hlength
    have hpos : failures.length ≠ 0 := fun hzero => hfailures (List.length_eq_zero_iff.mp hzero)
    omega
  · intro hwhen
    have hsame : run.retry format sha256 window failures =
        run.finalize format sha256 window (.ok ()) := by
      rcases hwhen with hwindow | hsnapshots | rfl
      · exact retry_eq_finalize hopen (.inl hwindow)
      · exact retry_eq_finalize hopen (.inr hsnapshots)
      · rfl
    obtain ⟨hresult, hrun⟩ := finalize_ok hfirst
    have hsealed : (run.sealWindow format window).Consistent := hconsistent.sealWindow window
    refine ⟨first, runFirst, windowFirst, hsame.trans hfirst, rfl, rfl, rfl, ?_, ?_⟩
    · intro log hlog
      rw [result_ok hresult]
      rw [hrun] at hlog
      exact hsealed.received log hlog
    · rw [result_ok hresult]
      exact hsealed.increasing

section Witness

/-- A snapshot that carries no market. -/
def bareSnapshot : MarketState := ⟨7, 0, 100, 1, [], [], trivial, trivial⟩

/-- A run without agents, fed one closing snapshot. -/
def fedRun : CompetitionRun :=
  (CompetitionRun.start [] .replay "r" true).tick ratioFormat bareSnapshot

theorem fedRun_seals (window : Option RunWindow) :
    ∃ first run' window', fedRun.finalize ratioFormat String.ofList window (.ok ()) =
      (.ok first, run', window') := by
  have hopen : (fedRun.sealWindow ratioFormat window).Consistent :=
    ((CompetitionRun.Consistent.start [] .replay "r" true).tick bareSnapshot).sealWindow window
  have hdecisions : (fedRun.sealWindow ratioFormat window).decisions = [] := by
    unfold CompetitionRun.sealWindow
    split <;> rfl
  have hresult : ∃ first, (fedRun.sealWindow ratioFormat window).result ratioFormat String.ofList
      (window.map (RunWindow.stamp fedRun.snapshots)) = .ok first := by
    simp only [CompetitionRun.result, hopen.evidenceHash, hdecisions, List.mapM_nil]
    exact ⟨_, rfl⟩
  obtain ⟨first, hfirst⟩ := hresult
  have hfinalized : fedRun.finalized = false := rfl
  refine ⟨first, { fedRun.sealWindow ratioFormat window with finalized := true },
    window.map (RunWindow.stamp fedRun.snapshots), ?_⟩
  simp only [CompetitionRun.finalize, hfinalized, Bool.false_eq_true, if_false, hfirst]

theorem retry_eq_first_iff_fed : ∃ first last run' window',
    fedRun.retry ratioFormat String.ofList none [⟨.exception, "store is down"⟩] =
      (.ok last, run', window') ∧ SealedAlike first last run' := by
  obtain ⟨first, runFirst, windowFirst, hfirst⟩ := fedRun_seals none
  have hcalls : (CompetitionRun.start [] .replay "r" true).calls ratioFormat
      [.feedClosing bareSnapshot] = .ok fedRun := rfl
  exact ⟨first, (retry_eq_first_iff hcalls hfirst).mpr (.inl rfl)⟩

/-- A windowed seal that is tried again seals the window's configuration twice. -/
theorem windowed_retry_differs :
    ¬ ∀ (format : Json.FloatFormat PyFloat) (sha256 : List Char → String) (agents : List Agent)
      (sourceMode : SourceMode) (runId : String) (hasSink : Bool) (calls : List Call)
      (run runFirst : CompetitionRun) (window windowFirst : Option RunWindow)
      (failures : List PyExc) (first : RunResult),
      (CompetitionRun.start agents sourceMode runId hasSink).calls format calls = .ok run →
      run.finalize format sha256 window (.ok ()) = (.ok first, runFirst, windowFirst) →
        ∃ last run' window',
          run.retry format sha256 window failures = (.ok last, run', window') ∧
            SealedAlike first last run' := by
  intro hclaim
  have hcalls : (CompetitionRun.start [] .replay "r" true).calls ratioFormat
      [.feedClosing bareSnapshot] = .ok fedRun := rfl
  obtain ⟨first, runFirst, windowFirst, hfirst⟩ := fedRun_seals (some ⟨"w", .manualStop, 60, none⟩)
  obtain ⟨last, run', window', hlast, halike⟩ := hclaim _ _ _ _ _ _ _ _ _ _ _
    [⟨.exception, "store is down"⟩] _ hcalls hfirst
  have hlength := retry_length rfl hlast
  rw [halike.runEvents, result_ok (finalize_ok hfirst).1, sealWindow_length] at hlength
  simp [fedRun, CompetitionRun.tick, CompetitionRun.emit, CompetitionRun.start] at hlength

end Witness

end Veridex.Runtime
