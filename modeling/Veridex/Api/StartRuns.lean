import Veridex.Api.StartLog

/-!
# A start that nothing disturbs (`competition/service.py`)

Where every call is answered, a start of a competition whose log is empty takes its agents' decisions,
seals its run, appends its evidence and the derived tail, and comes to its execution block.

Results: `reaches_block`, `paper_start_returns`, and one start of each kind.
-/

namespace Veridex.Api

open Veridex.Competition Veridex.Lib Veridex.Policy Veridex.Py Veridex.Runtime Veridex.Scoring
open Veridex.Law (SourceMode)
open Veridex.Store Task

/-- Only a competition's log is another. -/
structure OnlyLog (competitionId : String) (s s' : InMemoryStore) : Prop where
  competitions : s'.competitions = s.competitions
  records : s'.executionRecords = s.executionRecords
  logs : ∀ id, id ≠ competitionId → s'.competitionEvents id = s.competitionEvents id

theorem OnlyLog.refl (competitionId : String) (s : InMemoryStore) : OnlyLog competitionId s s :=
  ⟨rfl, rfl, fun _ _ => rfl⟩

theorem OnlyLog.trans {competitionId : String} {s s' s'' : InMemoryStore}
    (h : OnlyLog competitionId s s') (h' : OnlyLog competitionId s' s'') :
    OnlyLog competitionId s s'' :=
  ⟨h'.competitions.trans h.competitions, h'.records.trans h.records,
    fun id hid => (h'.logs id hid).trans (h.logs id hid)⟩

/-- Events whose numbers follow those of a log are appended. -/
theorem reaches_append (s : InMemoryStore) (competitionId : String) (events : List CompetitionEvent)
    (h : (s.competitionEvents competitionId ++ events).map (·.seq) =
      (List.range (s.competitionEvents competitionId ++ events).length).map (Nat.cast : ℕ → ℤ)) :
    ∃ s', Reaches s (appendCompetitionEvents competitionId events : Request Unit) s' (.done (.ok ())) ∧
      s'.competitionEvents competitionId = s.competitionEvents competitionId ++ events ∧
      OnlyLog competitionId s s' ∧ s'.runs = s.runs := by
  have hnodup : ((s.competitionEvents competitionId ++ events).map (·.seq)).Nodup := by
    rw [h]
    exact List.nodup_range.map Nat.cast_injective
  rw [List.map_append, List.nodup_append] at hnodup
  obtain ⟨-, hevents, hapart⟩ := hnodup
  have hfree := @InMemoryStore.appendCompetitionEvents_free competitionId events s
    ⟨hevents, fun event hevent hmem => hapart _ hmem _ (List.mem_map_of_mem hevent) rfl⟩
  refine ⟨_, reaches_perform (by rw [hfree]), ?_⟩
  rw [hfree]
  exact ⟨Function.update_self .., ⟨rfl, rfl, fun id hid => Function.update_of_ne hid _ _⟩, rfl⟩

/-- A method of the store that is awaited. -/
theorem reaches_await {α : Type} {name : StoreCall} {method : Method α} {s s' : InMemoryStore}
    {outcome : Except Store.Raised α} (h : method s = (outcome, s')) :
    Reaches s (await name method : Request α) s' (.done outcome) := by
  have hreach : Reaches s (await name method : Request α) (method s).2 (.done (method s).1) :=
    reaches_perform rfl
  rwa [h] at hreach

theorem getCompetition_stored {competitionId : String} {s : InMemoryStore} {competition : Competition}
    (h : s.competitions competitionId = some competition) :
    InMemoryStore.getCompetition competitionId s = (.ok competition, s) := by
  rw [InMemoryStore.getCompetition, h]

theorem withCompetition_stored {α : Type} {competitionId : String} {s : InMemoryStore}
    {competition changed : Competition} {a : α}
    {body : Competition → Except Store.Raised (α × Competition)}
    (h : s.competitions competitionId = some competition) (hbody : body competition = .ok (a, changed)) :
    InMemoryStore.withCompetition competitionId body s = (.ok a, { s with
      competitions := Function.update s.competitions competitionId (some changed) }) := by
  rw [InMemoryStore.withCompetition, h]
  simp only [hbody]

theorem reaches_safeBroadcast (s : InMemoryStore) (reply : Reply) (event : CompetitionEvent) :
    Reaches s (safeBroadcast event) s (.done (.ok ())) :=
  ((reaches_request s reply).bind .refl).andThen _

namespace StartInputs

variable {format : Json.FloatFormat PyFloat} {sha256 : List Char → String}
  {policyHash : PolicyEnvelope → String} {inputs : StartInputs} {s : InMemoryStore}
  {state : CompetitionRun × ℤ} {started : CompetitionEvent}

/-- The log is a start and the evidence of what the run has emitted. -/
structure Ready (format : Json.FloatFormat PyFloat) (sha256 : List Char → String)
    (inputs : StartInputs) (started : CompetitionEvent) (s : InMemoryStore)
    (state : CompetitionRun × ℤ) : Prop where
  log : ∃ evidence, s.competitionEvents inputs.competitionId = started :: evidence ∧
    evidenceEvents format sha256 inputs.competitionId inputs.runId inputs.baseTs state.1.rawEvents =
      .ok evidence
  clock : state.1.rawEvents.foldlM (nextTickTs format) inputs.baseTs = .ok state.2
  consistent : state.1.Consistent

/-- **One event** that is emitted is appended. -/
theorem Ready.emit (reply : Reply) (hstarted : IsDerived started) (hzero : started.seq = 0)
    (h : Ready format sha256 inputs started s state) {body : EventBody}
    (hbody : Emitted format body) {run : CompetitionRun} (hrun : run.Consistent)
    (hevents : run.rawEvents = state.1.rawEvents ++
      [{ body with sequenceNo := state.1.sequenceNo }]) :
    ∃ s' clock, Reaches s (inputs.emit format sha256 state body) s' (.done (.ok clock)) ∧
      Ready format sha256 inputs started s' (run, clock) ∧ OnlyLog inputs.competitionId s s' := by
  obtain ⟨evidence, hlog, hevidence⟩ := h.log
  have hemitted : Emitted format
      (RunEvent.toEventBody { body with sequenceNo := state.1.sequenceNo }) := hbody
  obtain ⟨⟨event, clock⟩, hbuilt⟩ := hemitted.built sha256 inputs.competitionId inputs.runId state.2
  obtain ⟨hevidence', hclock'⟩ := evidenceEvents_append hevidence h.clock hbuilt
  rw [← hevents] at hevidence' hclock'
  have hshape := logOf_evidence started hrun.numbered hstarted hzero (evidenceEvents_binds hevidence')
  have hnumbered := hshape.numbered
  rw [← List.cons_append, ← hlog] at hnumbered
  obtain ⟨s', happend, hlog', honly, -⟩ := reaches_append s _ _ hnumbered
  refine ⟨s', clock, ?_, ⟨⟨evidence ++ [event], ?_, hevidence'⟩, hclock', hrun⟩, honly⟩
  · have hsent : Reaches s' (if inputs.broadcast = true then (do
        safeBroadcast event
        pure clock) else pure clock : Request ℤ) s' (.done (.ok clock)) := by
      split_ifs
      · exact (reaches_safeBroadcast s' reply event).bind .refl
      · exact .refl
    have hpure : Reaches s (ofPure (buildEvidenceEvent format sha256 inputs.competitionId inputs.runId
        { body with sequenceNo := state.1.sequenceNo } state.2)) s (.done (.ok (event, clock))) := by
      rw [hbuilt]
      exact .refl
    exact hpure.bind (happend.bind hsent)
  · rw [hlog', hlog]
    rfl

theorem Ready.tick (reply : Reply) (hstarted : IsDerived started) (hzero : started.seq = 0)
    (h : Ready format sha256 inputs started s state) (snapshot : MarketState) :
    ∃ s' clock, Reaches s (inputs.tick format sha256 state snapshot) s'
        (.done (.ok (state.1.tick format snapshot, clock))) ∧
      Ready format sha256 inputs started s' (state.1.tick format snapshot, clock) ∧
      OnlyLog inputs.competitionId s s' := by
  obtain ⟨s', clock, hemit, hready, honly⟩ := h.emit reply hstarted hzero (.tick snapshot)
    (h.consistent.tick snapshot) rfl
  exact ⟨s', clock, hemit.bind .refl, hready, honly⟩

theorem Ready.record (reply : Reply) (hstarted : IsDerived started) (hzero : started.seq = 0)
    (h : Ready format sha256 inputs started s state) (snapshot : MarketState)
    (result : Agent × Outcome) :
    ∃ s' clock, Reaches s (inputs.record format sha256 snapshot state result) s'
        (.done (.ok (state.1.record format snapshot result, clock))) ∧
      Ready format sha256 inputs started s' (state.1.record format snapshot result, clock) ∧
      OnlyLog inputs.competitionId s s' := by
  obtain ⟨s', clock, hemit, hready, honly⟩ := h.emit reply hstarted hzero
    (.outcome result.1 result.2) (h.consistent.record snapshot result) (record_rawEvents _ _ _)
  exact ⟨s', clock, hemit.bind .refl, hready, honly⟩

theorem Ready.records (reply : Reply) (hstarted : IsDerived started) (hzero : started.seq = 0)
    (h : Ready format sha256 inputs started s state) (snapshot : MarketState)
    (results : List (Agent × Outcome)) :
    ∃ s' clock, Reaches s (results.foldlM (inputs.record format sha256 snapshot) state) s'
        (.done (.ok (results.foldl (CompetitionRun.record format snapshot) state.1, clock))) ∧
      Ready format sha256 inputs started s'
        (results.foldl (CompetitionRun.record format snapshot) state.1, clock) ∧
      OnlyLog inputs.competitionId s s' := by
  induction results generalizing s state with
  | nil => exact ⟨s, state.2, .refl, h, .refl _ _⟩
  | cons result results ih =>
    obtain ⟨s₁, clock, hrecord, hready, honly⟩ := h.record reply hstarted hzero snapshot result
    obtain ⟨s₂, clock', hrest, hready', honly'⟩ := ih hready
    rw [List.foldlM_cons]
    exact ⟨s₂, clock', hrecord.bind hrest, hready', honly.trans honly'⟩

/-- What a run is after a snapshot and its outcomes. -/
def fedWith (format : Json.FloatFormat PyFloat) (inputs : StartInputs) (run : CompetitionRun)
    (tick : MarketState × Reply) : CompetitionRun :=
  (inputs.gathered tick.2.outcomes).foldl (CompetitionRun.record format tick.1)
    (run.tick format tick.1)

/-- **The snapshots** fed, each with what its agents answer. -/
theorem Ready.feed (hstarted : IsDerived started) (hzero : started.seq = 0)
    (h : Ready format sha256 inputs started s state) (ticks : List (MarketState × Reply)) :
    ∃ s' clock, Reaches s ((ticks.map Prod.fst).foldlM (inputs.feed format sha256) state) s'
        (.done (.ok (ticks.foldl (inputs.fedWith format) state.1, clock))) ∧
      Ready format sha256 inputs started s' (ticks.foldl (inputs.fedWith format) state.1, clock) ∧
      OnlyLog inputs.competitionId s s' := by
  induction ticks generalizing s state with
  | nil => exact ⟨s, state.2, .refl, h, .refl _ _⟩
  | cons tick ticks ih =>
    obtain ⟨s₁, clock₁, htick, hready₁, honly₁⟩ := h.tick tick.2 hstarted hzero tick.1
    obtain ⟨s₂, clock₂, hrecords, hready₂, honly₂⟩ :=
      hready₁.records tick.2 hstarted hzero tick.1 (inputs.gathered tick.2.outcomes)
    obtain ⟨s₃, clock₃, hrest, hready₃, honly₃⟩ := ih hready₂
    rw [List.map_cons, List.foldlM_cons]
    have hfeed : Reaches s (inputs.feed format sha256 state tick.1) s₂
        (.done (.ok (inputs.fedWith format state.1 tick, clock₂))) :=
      htick.bind ((reaches_request s₁ tick.2).bind hrecords)
    exact ⟨s₃, clock₃, hfeed.bind hrest, hready₃, honly₁.trans (honly₂.trans honly₃)⟩

/-! ## The whole start -/

/-- What follows the derived tail. -/
def afterTail (format : Json.FloatFormat PyFloat) (sha256 : List Char → String)
    (policyHash : PolicyEnvelope → String) (inputs : StartInputs) (competition : Competition)
    (runResult : RunResult) (fullLog : List CompetitionEvent) : Request Competition := do
  if competition.config.executionMode ≠ .paper then
    catchingException (inputs.runExecutionBlock format sha256 policyHash competition runResult
      (lastSeq fullLog + 1)) fun e => do
        updateCompetitionStatus inputs.competitionId .finalized
        .raise e
  updateCompetitionStatus inputs.competitionId .finalized
  getCompetition inputs.competitionId

/-- The run that some ticks make. -/
def runOf (format : Json.FloatFormat PyFloat) (inputs : StartInputs) (sourceMode : SourceMode)
    (ticks : List (MarketState × Reply)) : CompetitionRun :=
  ticks.foldl (inputs.fedWith format) (CompetitionRun.start inputs.agents sourceMode inputs.runId true)

theorem calls_runOf (sourceMode : SourceMode) (ticks : List (MarketState × Reply)) :
    (CompetitionRun.start inputs.agents sourceMode inputs.runId true).calls format
        (ticks.map fun tick => .feed tick.1 (inputs.gathered tick.2.outcomes)) =
      .ok (inputs.runOf format sourceMode ticks) := by
  have hfrom : ∀ run : CompetitionRun, run.finalized = false →
      run.calls format (ticks.map fun tick => .feed tick.1 (inputs.gathered tick.2.outcomes)) =
        .ok (ticks.foldl (inputs.fedWith format) run) := by
    induction ticks with
    | nil => exact fun _ _ => rfl
    | cons tick ticks ih =>
      intro run hopen
      have hfeed : run.call format (.feed tick.1 (inputs.gathered tick.2.outcomes)) =
          .ok (inputs.fedWith format run tick) := by
        rw [CompetitionRun.call, CompetitionRun.feed, if_neg (by simp [hopen])]
        rfl
      have hone : run.calls format [.feed tick.1 (inputs.gathered tick.2.outcomes)] =
          .ok (inputs.fedWith format run tick) := bind_eq_ok.mpr ⟨_, hfeed, rfl⟩
      exact bind_eq_ok.mpr ⟨_, hfeed, ih _ (calls_finalized hopen hone)⟩
  exact hfrom _ rfl

theorem sealedRun_runOf {sourceMode : SourceMode} {ticks : List (MarketState × Reply)}
    {runResult : RunResult} (hticks : inputs.marketstates = ticks.map Prod.fst)
    (hresult : (inputs.runOf format sourceMode ticks).result format sha256 none = .ok runResult) :
    SealedRun format sha256 inputs sourceMode runResult := by
  refine sealedRun_of_calls ?_ ?_ (calls_runOf sourceMode ticks) hresult
  · rw [hticks, List.map_map]
    rfl
  · intro call hcall
    obtain ⟨tick, -, rfl⟩ := List.mem_map.mp hcall
    exact gathered_fst _

/-- The run of an undisturbed start, from its start event on. -/
theorem reaches_runCompetition {sourceMode : SourceMode} {ticks : List (MarketState × Reply)}
    {runResult : RunResult} (hticks : inputs.marketstates = ticks.map Prod.fst)
    (hresult : (inputs.runOf format sourceMode ticks).result format sha256 none = .ok runResult)
    (hstarted : IsDerived started) (hzero : started.seq = 0)
    (hlog : s.competitionEvents inputs.competitionId = [started]) :
    ∃ s' evidence, Reaches s (inputs.runCompetition format sha256 sourceMode) s'
        (.done (.ok runResult)) ∧ s'.competitionEvents inputs.competitionId = started :: evidence ∧
      evidenceEvents format sha256 inputs.competitionId inputs.runId inputs.baseTs
        runResult.runEvents = .ok evidence ∧ OnlyLog inputs.competitionId s s' := by
  have hready : Ready format sha256 inputs started s
      (CompetitionRun.start inputs.agents sourceMode inputs.runId true, inputs.baseTs) :=
    ⟨⟨[], hlog, rfl⟩, rfl, CompetitionRun.Consistent.start _ _ _ _⟩
  obtain ⟨s₁, clock, hfeed, hready₁, honly⟩ := hready.feed hstarted hzero ticks
  obtain ⟨evidence, hlog₁, hevidence⟩ := hready₁.log
  rw [← hticks] at hfeed
  have hpure : Reaches s₁ (ofPure ((inputs.runOf format sourceMode ticks).result format sha256 none)) s₁
      (.done (.ok runResult)) := by
    rw [hresult]
    exact .refl
  have hpersist : Reaches s₁ (persistRun runResult : Request Unit) _ (.done (.ok ())) :=
    reaches_perform rfl
  refine ⟨_, evidence, hfeed.bind (hpure.bind (hpersist.bind .refl)), hlog₁, ?_, ?_⟩
  · rw [result_ok hresult]
    exact hevidence
  · exact honly.trans ⟨rfl, rfl, fun _ _ => rfl⟩

/-- **A start that has read its competition** comes to its execution block: its log is the projection of
its run, and what is stored runs under its id. -/
theorem reaches_run {competition stored : Competition} {ticks : List (MarketState × Reply)}
    {runResult : RunResult} {fullLog : List CompetitionEvent}
    (hticks : inputs.marketstates = ticks.map Prod.fst)
    (hresult : (inputs.runOf format competition.config.sourceMode ticks).result format sha256 none =
      .ok runResult)
    (hbuilt : buildEventLog format sha256 runResult
      { competitionId := inputs.competitionId, eventTs := inputs.baseTs } = .ok fullLog)
    (hstatus : competition.status = .draft ∨ competition.status = .open)
    (hstored : s.competitions inputs.competitionId = some stored)
    (hempty : s.competitionEvents inputs.competitionId = []) :
    ∃ s', Reaches s (inputs.run format sha256 policyHash competition) s'
        (inputs.afterTail format sha256 policyHash competition runResult fullLog) ∧
      s'.competitionEvents inputs.competitionId = fullLog ∧
      s'.competitions = Function.update s.competitions inputs.competitionId
        (some { stored with status := .running, runId := some inputs.runId }) ∧
      s'.executionRecords = s.executionRecords := by
  have hsealed := sealedRun_runOf hticks hresult
  have hshape := (buildEventLog_shape hsealed.numbered hbuilt).1
  -- the competition runs under the id of its run
  let running : Competition := { stored with status := .running }
  let named : Competition := { running with runId := some inputs.runId }
  let s₁ : InMemoryStore :=
    { s with competitions := Function.update s.competitions inputs.competitionId (some running) }
  let s₂ : InMemoryStore :=
    { s with competitions := Function.update s.competitions inputs.competitionId (some named) }
  have hrunning : Reaches s (updateCompetitionStatus inputs.competitionId .running : Request Unit) s₁
      (.done (.ok ())) := reaches_await (withCompetition_stored hstored rfl)
  have hnamed : Reaches s₁
      (updateCompetitionRunId inputs.competitionId inputs.runId : Request Unit) s₂
      (.done (.ok ())) := by
    have hfound : s₁.competitions inputs.competitionId = some running := Function.update_self ..
    have hwritten : InMemoryStore.updateCompetitionRunId inputs.competitionId inputs.runId s₁ = _ :=
      withCompetition_stored hfound rfl
    rw [Function.update_idem] at hwritten
    exact reaches_await hwritten
  -- its log is opened, and the agents run
  have hempty₂ : s₂.competitionEvents inputs.competitionId = [] := hempty
  obtain ⟨s₃, hopen, hlog₃, honly₃, -⟩ := reaches_append s₂ inputs.competitionId
    [inputs.startedEvent format sha256 competition.config.sourceMode] (by
      rw [hempty₂]
      rfl)
  rw [hempty₂, List.nil_append] at hlog₃
  have hderived : IsDerived (inputs.startedEvent format sha256 competition.config.sourceMode) :=
    derivedEvent_isDerived
  obtain ⟨s₄, evidence, hrun, hlog₄, hevidence, honly₄⟩ :=
    reaches_runCompetition hticks hresult hderived rfl hlog₃
  -- what was appended is what is projected
  have hvisible : visible s₄ inputs.competitionId =
      fullLog.take (runResult.runEvents.length + 1) := by
    have hnothing : visible s inputs.competitionId = [] := by
      rw [visible, hempty, List.mergeSort_nil]
      rfl
    have happended : s₄.competitionEvents inputs.competitionId =
        s.competitionEvents inputs.competitionId ++
          [inputs.startedEvent format sha256 competition.config.sourceMode] ++ evidence := by
      rw [hlog₄, hempty]
      rfl
    exact visible_live hsealed hnothing happended hevidence hbuilt
  have hparity : Reaches s₄ (assertPrefixParity (visible s₄ inputs.competitionId)
      (fullLog.filter fun event => event.seq ≤ (runResult.runEvents.length : ℤ))) s₄
      (.done (.ok ())) := by
    rw [hvisible, filter_upTo hshape.numbered]
    unfold assertPrefixParity
    dsimp only
    rw [if_neg (not_not.mpr rfl), (firstDivergence_eq_none rfl).mpr rfl]
    exact .refl
  have hlist : Reaches s₄ (listCompetitionEvents inputs.competitionId (-1) :
      Request (List CompetitionEvent)) s₄ (.done (.ok (visible s₄ inputs.competitionId))) :=
    reaches_await rfl
  have hpure : Reaches s₄ (ofPure (buildEventLog format sha256 runResult
      { competitionId := inputs.competitionId, eventTs := inputs.baseTs })) s₄
      (.done (.ok fullLog)) := by
    rw [hbuilt]
    exact .refl
  -- the tail goes behind it
  have hwhole : s₄.competitionEvents inputs.competitionId ++
      (fullLog.filter fun event => (runResult.runEvents.length : ℤ) < event.seq) = fullLog := by
    rw [hlog₄, started_evidence_eq_take hsealed hevidence hbuilt, filter_after hshape.numbered]
    exact List.take_append_drop _ _
  obtain ⟨s₅, happend, hlog₅, honly₅, -⟩ := reaches_append s₄ inputs.competitionId
    (fullLog.filter fun event => (runResult.runEvents.length : ℤ) < event.seq) (by
      rw [hwhole]
      exact hshape.numbered)
  rw [hwhole] at hlog₅
  have hconclude : Reaches s₄ (inputs.conclude format sha256 policyHash competition runResult) s₅
      (inputs.afterTail format sha256 policyHash competition runResult fullLog) :=
    hpure.bind (hlist.bind (hparity.bind (happend.bind .refl)))
  have hbody : Reaches s (inputs.run format sha256 policyHash competition) s₅
      (inputs.afterTail format sha256 policyHash competition runResult fullLog) := by
    unfold run
    rw [if_neg (by rcases hstatus with h | h <;> simp [h]),
      if_neg (by rcases hstatus with h | h <;> simp [h])]
    exact hrunning.bind (hnamed.bind (hopen.bind (hrun.bind hconclude)))
  refine ⟨s₅, hbody, hlog₅, ?_, ?_⟩
  · rw [honly₅.competitions, honly₄.competitions, honly₃.competitions]
  · rw [honly₅.records, honly₄.records, honly₃.records]

/-- **An undisturbed start** comes to its execution block. -/
theorem reaches_block {competition : Competition} {ticks : List (MarketState × Reply)}
    {runResult : RunResult} {fullLog : List CompetitionEvent}
    (hticks : inputs.marketstates = ticks.map Prod.fst)
    (hresult : (inputs.runOf format competition.config.sourceMode ticks).result format sha256 none =
      .ok runResult)
    (hbuilt : buildEventLog format sha256 runResult
      { competitionId := inputs.competitionId, eventTs := inputs.baseTs } = .ok fullLog)
    (hstatus : competition.status = .draft ∨ competition.status = .open)
    (hstored : s.competitions inputs.competitionId = some competition)
    (hempty : s.competitionEvents inputs.competitionId = []) :
    ∃ s', Reaches s (inputs.startCompetition format sha256 policyHash) s'
        (inputs.afterTail format sha256 policyHash competition runResult fullLog) ∧
      s'.competitionEvents inputs.competitionId = fullLog ∧
      s'.competitions = Function.update s.competitions inputs.competitionId
        (some { competition with status := .running, runId := some inputs.runId }) ∧
      s'.executionRecords = s.executionRecords := by
  have hget : Reaches s (getCompetition inputs.competitionId : Request Competition) s
      (.done (.ok competition)) := reaches_await (getCompetition_stored hstored)
  obtain ⟨s', hrun, hrest⟩ := reaches_run hticks hresult hbuilt hstatus hstored hempty
  exact ⟨s', hget.bind hrun, hrest⟩

/-- A paper competition's start, undisturbed, returns. -/
theorem paper_start_returns {competition : Competition} {ticks : List (MarketState × Reply)}
    {runResult : RunResult} {fullLog : List CompetitionEvent}
    (hpaper : competition.config.executionMode = .paper)
    (hticks : inputs.marketstates = ticks.map Prod.fst)
    (hresult : (inputs.runOf format competition.config.sourceMode ticks).result format sha256 none =
      .ok runResult)
    (hbuilt : buildEventLog format sha256 runResult
      { competitionId := inputs.competitionId, eventTs := inputs.baseTs } = .ok fullLog)
    (hstatus : competition.status = .draft ∨ competition.status = .open)
    (hstored : s.competitions inputs.competitionId = some competition)
    (hempty : s.competitionEvents inputs.competitionId = []) :
    ∃ s' returned, Reaches s (inputs.startCompetition format sha256 policyHash) s'
      (.done (.ok returned)) := by
  obtain ⟨s', hreach, -, hcompetitions, -⟩ := reaches_block hticks hresult hbuilt hstatus
    hstored hempty
  have hfound : s'.competitions inputs.competitionId =
      some { competition with status := .running, runId := some inputs.runId } := by
    rw [hcompetitions, Function.update_self]
  let ended : Competition :=
    { competition with status := .finalized, runId := some inputs.runId }
  let s'' : InMemoryStore :=
    { s' with competitions := Function.update s'.competitions inputs.competitionId (some ended) }
  have hfinal : Reaches s' (updateCompetitionStatus inputs.competitionId .finalized : Request Unit) s''
      (.done (.ok ())) := reaches_await (withCompetition_stored hfound rfl)
  have hended : s''.competitions inputs.competitionId = some ended := Function.update_self ..
  have hget : Reaches s'' (getCompetition inputs.competitionId : Request Competition) s''
      (.done (.ok ended)) := reaches_await (getCompetition_stored hended)
  refine ⟨s'', ended, hreach.trans ?_⟩
  unfold afterTail
  rw [if_neg (not_not.mpr hpaper)]
  exact hfinal.bind hget

end StartInputs

/-! ## One start -/

/-- What the agent of `farCalls` answers. -/
def farReply (outcome : Outcome) : Reply where
  lane := Execution.fills
  outcomes _ := outcome
  arenaReport := []
  agentInstance := none

/-- The snapshots of `farCalls`, with what is answered. -/
def farTicks (probBps : ℤ) : List (MarketState × Reply) :=
  [(probTick 0 0, farReply (.acted Execution.flagOver)), (probTick 1 probBps, farReply .noAction)]

/-- A start of them. -/
def farInputs (probBps : ℤ) : StartInputs where
  competitionId := "c"
  marketstates := [probTick 0 0, probTick 1 probBps]
  agents := [Execution.punter]
  broadcast := false
  runId := "r"

theorem smallest_roster : 2 ≤ 2 := le_rfl

/-- A competition in a mode. -/
def freshCompetition (executionMode : ExecutionMode) : Competition where
  competitionId := "c"
  config := {
    sourceMode := .replay
    executionMode := executionMode
    rosterSize := 2
    two_le_rosterSize := smallest_roster }
  status := .draft
  entries := []
  runId := none

/-- A store that holds it alone. -/
def freshStore (executionMode : ExecutionMode) : InMemoryStore where
  runs _ := none
  competitions := Function.update (fun _ => none) "c" (some (freshCompetition executionMode))
  competitionEvents _ := []
  executionRecords _ := none

theorem ownIds_freshStore (executionMode : ExecutionMode) : OwnIds (freshStore executionMode) := by
  intro competitionId competition h
  unfold freshStore at h
  dsimp only at h
  rw [Function.update_apply] at h
  split_ifs at h with hid
  obtain rfl := Option.some.inj h
  exact hid.symm

theorem freshStore_competition (executionMode : ExecutionMode) :
    (freshStore executionMode).competitions "c" = some (freshCompetition executionMode) := rfl

/-- One row is of an agent, or not. -/
theorem rowsOf_singleton (row : Params) (agentId : String) :
    rowsOf [row] agentId = [] ∨ rowsOf [row] agentId = [row] := by
  rw [rowsOf, List.filter_cons, List.filter_nil]
  split_ifs
  · exact .inr rfl
  · exact .inl rfl

/-- The run that a start of them seals is projected, where the probability is small. -/
theorem farTicks_build : ∃ runResult fullLog,
    ((farInputs 2).runOf ratioFormat .replay (farTicks 2)).result ratioFormat String.ofList none =
        .ok runResult ∧
      buildEventLog ratioFormat String.ofList runResult { competitionId := "c", eventTs := 100 } =
        .ok fullLog := by
  obtain ⟨run, result, evidenceHash, hcalls, hresult, hrows⟩ := farCalls_seals 2
  have hrun : (farInputs 2).runOf ratioFormat .replay (farTicks 2) = run :=
    Except.ok.inj ((StartInputs.calls_runOf .replay (farTicks 2)).symm.trans hcalls)
  have hfits : MeansFit result.scoreRows := by
    intro agentId
    have hclv : rowsOf result.scoreRows agentId = [] ∨
        rowsOf result.scoreRows agentId = [farRow 2 evidenceHash] := by
      rw [hrows]
      exact rowsOf_singleton _ agentId
    rcases hclv with hclv | hclv
    · simp [hclv, MeanFits]
    · rw [hclv]
      refine ⟨fun _ => ?_, fun h => absurd rfl h⟩
      have hvalue : (([farRow 2 evidenceHash].filter isScored).map fun row =>
          (intValue row "clv_bps").getD 0) = [2 - 0] := rfl
      rw [hvalue]
      have hbound := PyFloat.small_lt_overflowBound
      norm_num
      linarith
  obtain ⟨fullLog, hbuilt⟩ := (finalized_log hcalls
    (StartInputs.finalize_of_result (calls_finalized rfl hcalls) hresult) _).1.mpr hfits
  exact ⟨result, fullLog, hrun ▸ hresult, hbuilt⟩

/-- A paper competition is started, and its log is the projection. -/
theorem startCompetition_projects_paper : ∃ marks store' returned sourceMode runResult,
    Steps (freshStore .paper)
        ((farInputs 2).startCompetition ratioFormat String.ofList fun _ => "") marks store'
        (.done (.ok returned)) ∧
      StartInputs.Seals ratioFormat String.ofList (farInputs 2) sourceMode runResult ∧
      store'.runs "r" = some runResult ∧
      StartInputs.Projected ratioFormat String.ofList (farInputs 2) runResult store' := by
  obtain ⟨runResult, fullLog, hresult, hbuilt⟩ := farTicks_build
  have hstart : ∃ s' returned, Reaches (freshStore .paper)
      ((farInputs 2).startCompetition ratioFormat String.ofList fun _ => "") s'
      (.done (.ok returned)) :=
    StartInputs.paper_start_returns rfl rfl hresult hbuilt (.inl rfl) (freshStore_competition .paper) rfl
  obtain ⟨s', returned, marks, hsteps⟩ := hstart
  obtain ⟨sourceMode, runResult, hprojected⟩ :=
    (startCompetition_projects (ownIds_freshStore .paper)).1 _ _ _ hsteps
  exact ⟨marks, s', returned, sourceMode, runResult, hsteps, hprojected⟩

end Veridex.Api
