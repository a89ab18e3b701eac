import Veridex.Checks.Rebuild

/-!
# An honest run verifies (`checks/build.py`, `runtime/orchestrator.py`)

`scoreRow_checks` says of one row that the checker comes to what the seal put there, whatever the
window made of it: left alone, labelled `pending_horizon` or renamed. `honest_run_verifies` is the
same for every run the orchestrator seals.
-/

namespace Veridex.Checks

open Veridex.Py Veridex.Lib Veridex.Runtime Veridex.Law Veridex.Scoring

variable {format : Json.FloatFormat PyFloat} {sha256 : List Char → String}

/-! ## The rows of a seal -/

/-- What the seal scores a decision with. -/
structure ScoredWith (format : Json.FloatFormat PyFloat) (run : CompetitionRun)
    (decision : Agent × AgentAction × MarketState) (verdict : Verdict) : Prop where
  recomputed : (do
    let closing ← closingFor (closingSnapshots run.snapshots) decision.2.1
    recompute format decision.2.2 decision.2.1 closing run.sourceMode) = .ok verdict
  whole : ∃ edgeBps, verdict.edgeBps.toInt = .ok edgeBps

/-- What a sealed row shows of its decision, whatever its value is called. -/
structure Shows (decision : Agent × AgentAction × MarketState) (verdict : Verdict) (row : Params) :
    Prop where
  tick : field row "tick_seq" = .int decision.2.2.tickSeq
  agent : row.lookup "agent_id" = some (.str decision.1.agentId)
  valid : field row "valid" = .bool verdict.valid

/-- How a sealed row shows its value: under its own name, under the window's, or not at all. -/
inductive ShowsValue (window : Option RunWindow) (endTs : Option ℤ) (snapshot : MarketState)
    (verdict : Verdict) (row : Params) : Prop
  | clv (hreason : field row "reason" = .str verdict.reason)
      (hclv : row.lookup "clv_bps" = some verdict.clvBps)
      (hwindowClv : row.lookup "window_clv_bps" = none)
  | windowClv (w : RunWindow) (close : ℤ) (hwindow : window = some w) (hclose : endTs = some close)
      (hfar : isPendingHorizon snapshot.ts close w.minClvHorizonS = false)
      (hclv : row.lookup "clv_bps" = none)
      (hwindowClv : row.lookup "window_clv_bps" = some verdict.clvBps)
  | pending (w : RunWindow) (close : ℤ) (hwindow : window = some w) (hclose : endTs = some close)
      (hnear : isPendingHorizon snapshot.ts close w.minClvHorizonS = true)
      (hreason : field row "reason" = .str "pending_horizon")
      (hclv : row.lookup "clv_bps" = some Law.pending)
      (hwindowClv : row.lookup "window_clv_bps" = none)

section Rows

variable {evidenceHash : String} {decision : Agent × AgentAction × MarketState} {verdict : Verdict}
  {edgeBps : ℤ}

theorem plainRow_shows :
    Shows decision verdict (plainRow format sha256 evidenceHash decision verdict edgeBps) :=
  ⟨rfl, rfl, rfl⟩

theorem plainRow_value (window : Option RunWindow) (endTs : Option ℤ) (snapshot : MarketState) :
    ShowsValue window endTs snapshot verdict
      (plainRow format sha256 evidenceHash decision verdict edgeBps) :=
  .clv rfl rfl rfl

theorem field_setField_of_ne {name other : String} (hne : other ≠ name) (value : Decoded)
    (row : Params) : field (Json.setField name value row) other = field row other := by
  rw [field, Json.lookup_setField_of_ne hne, field]

/-- **The window** leaves a row's key and validity, and its value under one of the names. -/
theorem windowRow_shows (window : Option RunWindow) (endTs : Option ℤ) :
    Shows decision verdict (windowRow window endTs decision.2.2
        (plainRow format sha256 evidenceHash decision verdict edgeBps)) ∧
      ShowsValue window endTs decision.2.2 verdict (windowRow window endTs decision.2.2
        (plainRow format sha256 evidenceHash decision verdict edgeBps)) := by
  unfold windowRow
  split
  · rename_i w close
    split_ifs with hscored hnear hname
    · refine ⟨⟨?_, ?_, ?_⟩, .pending w close rfl rfl hnear ?_ ?_ ?_⟩
      · rw [field_setField_of_ne (by decide), field_setField_of_ne (by decide)]
        rfl
      · rw [Json.lookup_setField_of_ne (by decide), Json.lookup_setField_of_ne (by decide)]
        rfl
      · rw [field_setField_of_ne (by decide), field_setField_of_ne (by decide)]
        rfl
      · rw [field_setField_of_ne (by decide), field, Json.lookup_setField, Option.getD_some]
      · rw [Json.lookup_setField]
      · rw [Json.lookup_setField_of_ne (by decide), Json.lookup_setField_of_ne (by decide)]
        rfl
    · have hrule : clvFieldName w.endRule = "window_clv_bps" := by
        cases hend : w.endRule with
        | preMatch => exact absurd (by rw [hend]; rfl) hname
        | fixedDuration => rfl
        | manualStop => rfl
      rw [hrule]
      exact ⟨⟨rfl, rfl, rfl⟩, .windowClv w close rfl rfl (by simpa using hnear) rfl rfl⟩
    · exact ⟨plainRow_shows, plainRow_value _ _ _⟩
    · exact ⟨plainRow_shows, plainRow_value _ _ _⟩
  · exact ⟨plainRow_shows, plainRow_value _ _ _⟩

theorem scoreRow_ok {run : CompetitionRun} {window : Option RunWindow} {row : Params}
    (h : scoreRow format sha256 run window evidenceHash decision = .ok row) :
    ∃ verdict, ScoredWith format run decision verdict ∧ Shows decision verdict row ∧
      ShowsValue window (windowEndTs window run.snapshots) decision.2.2 verdict row := by
  obtain ⟨closing, hclosing, h⟩ := bind_eq_ok.mp h
  obtain ⟨verdict, hverdict, h⟩ := bind_eq_ok.mp h
  obtain ⟨edgeBps, hedge, h⟩ := bind_eq_ok.mp h
  obtain rfl := Except.ok.inj h
  obtain ⟨hshows, hvalue⟩ := @windowRow_shows format sha256 evidenceHash decision verdict edgeBps
    window (windowEndTs window run.snapshots)
  exact ⟨verdict, ⟨bind_eq_ok.mpr ⟨closing, hclosing, hverdict⟩, edgeBps, hedge⟩, hshows, hvalue⟩

end Rows

/-- The value of a verdict that was sealed is equal to itself. -/
theorem ScoredWith.clv_eqv {run : CompetitionRun}
    {decision : Agent × AgentAction × MarketState} {verdict : Verdict}
    (h : ScoredWith format run decision verdict) :
    verdict.clvBps.eqv verdict.clvBps = true := by
  obtain ⟨closing, -, hrecomputed⟩ := bind_eq_ok.mp h.recomputed
  obtain ⟨edgeBps, hedge⟩ := h.whole
  cases recompute_ok hrecomputed with
  | abstains hclv =>
    rw [hclv, pending, Decoded.eqv_str, beq_self_eq_true]
  | rejects hclv =>
    rw [hclv, eqv_int]
  | measures _ hedgeClv =>
    rw [hedgeClv] at hedge
    exact Decoded.eqv_self_of_toInt hedge

/-- No verdict looks like a row that is labelled pending. -/
theorem ScoredWith.not_labelled {run : CompetitionRun}
    {decision : Agent × AgentAction × MarketState} {verdict : Verdict}
    (h : ScoredWith format run decision verdict) (hpending : verdict.clvBps.eqv pending = true) :
    verdict.reason ≠ "pending_horizon" := by
  obtain ⟨closing, -, hrecomputed⟩ := bind_eq_ok.mp h.recomputed
  cases recompute_ok hrecomputed with
  | abstains _ hreason => exact hreason
  | rejects hclv => simp [hclv, pending, Decoded.eqv, Decoded.number] at hpending
  | measures hclv =>
    rcases hclv with ⟨n, hclv⟩ | ⟨x, hclv⟩
    · simp [hclv, pending, Decoded.eqv, Decoded.number] at hpending
    · simp [hclv, pending, Decoded.eqv, Decoded.number] at hpending

/-! ## The check of a row -/

/-- The configuration a window seals, as it is read back. -/
def sealedConfig (window : RunWindow) (close : ℤ) : Decoded :=
  Json.sorted (.obj [("end_rule", .str window.endRule.text),
    ("min_clv_horizon_s", .int window.minClvHorizonS), ("window_end_ts", .int close)])

theorem configInt_end (window : RunWindow) (close : ℤ) :
    configInt (sealedConfig window close) "window_end_ts" = .ok close := by
  simp only [configInt, sealedConfig, Json.sorted, Decoded.item, Decoded.key, bind, Except.bind,
    Option.bind_some, Json.lookup_sortedFields]
  rfl

theorem configInt_horizon (window : RunWindow) (close : ℤ) :
    configInt (sealedConfig window close) "min_clv_horizon_s" = .ok window.minClvHorizonS := by
  simp only [configInt, sealedConfig, Json.sorted, Decoded.item, Decoded.key, bind, Except.bind,
    Option.bind_some, Json.lookup_sortedFields]
  rfl

/-- What the checker rebuilt is what the run was sealed with. -/
structure Rebuilt.Holds (rebuilt : Rebuilt) (run : CompetitionRun) (window : Option RunWindow) :
    Prop where
  states : rebuilt.states = run.snapshots
  actions : rebuilt.actions = (run.decisions.map sealedAction).reverse
  config : ∀ w close, window = some w → windowEndTs window run.snapshots = some close →
    rebuilt.windowConfig = some (sealedConfig w close)

/-- The checker finds a row's entry and action again, and comes to what the row shows. -/
structure FoundAgain (format : Json.FloatFormat PyFloat) (rebuilt : Rebuilt)
    (sourceMode : SourceMode) (decision : Agent × AgentAction × MarketState) (row : Params) :
    Prop where
  entry : entryFor rebuilt.states (field row "tick_seq") = .ok (some decision.2.2)
  action : ∃ raw, actionFor rebuilt.actions (field row "tick_seq") (field row "agent_id") =
    .ok (some raw) ∧ AgentAction.ofJson raw = .ok decision.2.1
  agrees : checkRow format rebuilt sourceMode row = .ok []

section Check

variable {run : CompetitionRun} {window : Option RunWindow} {rebuilt : Rebuilt}
  {decision : Agent × AgentAction × MarketState} {verdict : Verdict} {row : Params}

/-- The law is applied to what it was applied to. -/
theorem redo_eq (hholds : rebuilt.Holds run window) (hscored : ScoredWith format run decision verdict) :
    redo format rebuilt run.sourceMode decision.2.2 decision.2.1.toJson.sorted = .ok verdict := by
  have hclosings : closingsFromMarketstates rebuilt.states = closingSnapshots run.snapshots := by
    rw [hholds.states]
    rfl
  rw [redo, AgentAction.ofJson_sorted, hclosings]
  exact hscored.recomputed

/-- **A sealed row's value** is what the checker comes to. -/
theorem checkRow_eq (hholds : rebuilt.Holds run window)
    (hscored : ScoredWith format run decision verdict)
    (hvalue : ShowsValue window (windowEndTs window run.snapshots) decision.2.2 verdict row)
    (hentry : entryFor rebuilt.states (field row "tick_seq") = .ok (some decision.2.2))
    (haction : actionFor rebuilt.actions (field row "tick_seq") (field row "agent_id") =
      .ok (some decision.2.1.toJson.sorted)) :
    checkRow format rebuilt run.sourceMode row = .ok [] := by
  have hredo := redo_eq hholds hscored
  simp only [checkRow, hentry, haction, bind, Except.bind]
  cases hvalue with
  | clv hreason hclv hwindowClv =>
    have hlabel : labelledPending row = false := by
      rw [labelledPending, Bool.and_eq_false_imp, hreason, Decoded.eqv_str]
      intro hreasonEq
      by_contra hpending
      rw [field, hclv, Option.getD_some, Bool.not_eq_false] at hpending
      exact hscored.not_labelled hpending (beq_iff_eq.mp hreasonEq)
    have hdisplayed : displayedClv row = verdict.clvBps := by
      rw [displayedClv, hwindowClv]
      simp [field, hclv]
    rw [hlabel, hredo, hdisplayed]
    simp [hscored.clv_eqv, pure, Except.pure]
  | windowClv w close hwindow hclose hfar hclv hwindowClv =>
    have hlabel : labelledPending row = false := by
      simp [labelledPending, field, hclv, pending, Decoded.eqv, Decoded.number]
    have hdisplayed : displayedClv row = verdict.clvBps := by
      rw [displayedClv, hwindowClv]
    rw [hlabel, hredo, hdisplayed]
    simp [hscored.clv_eqv, pure, Except.pure]
  | pending w close hwindow hclose hnear hreason hclv hwindowClv =>
    have hlabel : labelledPending row = true := by
      rw [labelledPending, hreason, field, hclv, Option.getD_some, pending, Decoded.eqv_str,
        Decoded.eqv_str, beq_self_eq_true, beq_self_eq_true, Bool.and_self]
    rw [hlabel, hholds.config w close hwindow hclose]
    simp [configInt_end, configInt_horizon, hnear, pure, Except.pure]

theorem scoreRow_checks {evidenceHash : String} (hholds : rebuilt.Holds run window)
    (hticks : run.snapshots.Pairwise fun a b => a.tickSeq < b.tickSeq)
    (hkeys : (run.decisions.map decisionKey).Nodup) (hdecision : decision ∈ run.decisions)
    (hsnapshot : decision.2.2 ∈ run.snapshots)
    (h : scoreRow format sha256 run window evidenceHash decision = .ok row) :
    FoundAgain format rebuilt run.sourceMode decision row := by
  obtain ⟨verdict, hscored, hshows, hvalue⟩ := scoreRow_ok h
  have hagent : field row "agent_id" = .str decision.1.agentId := by
    rw [field, hshows.agent, Option.getD_some]
  have hentry : entryFor rebuilt.states (field row "tick_seq") = .ok (some decision.2.2) := by
    rw [hshows.tick, hholds.states]
    exact entryFor_eq hticks hsnapshot rfl
  have haction : actionFor rebuilt.actions (field row "tick_seq") (field row "agent_id") =
      .ok (some decision.2.1.toJson.sorted) := by
    rw [hshows.tick, hagent, hholds.actions]
    exact actionFor_eq hkeys hdecision rfl
  exact ⟨hentry, ⟨_, haction, decision.2.1.ofJson_sorted⟩,
    checkRow_eq hholds hscored hvalue hentry haction⟩

end Check

/-! ## The events of a sealed run -/

/-- What a seal emits. -/
def sealedBodies (format : Json.FloatFormat PyFloat) (window : Option RunWindow)
    (snapshots : List MarketState) : List EventBody :=
  match window, windowEndTs window snapshots with
  | some window, some close => [windowBody format window close]
  | _, _ => []

section Sealed

variable {run : CompetitionRun} {window : Option RunWindow}

theorem sealWindow_emitted (run : CompetitionRun) (window : Option RunWindow) :
    (run.sealWindow format window).rawEvents.map RunEvent.toEventBody =
        run.rawEvents.map RunEvent.toEventBody ++ sealedBodies format window run.snapshots ∧
      (run.sealWindow format window).decisions = run.decisions ∧
      (run.sealWindow format window).sourceMode = run.sourceMode := by
  cases window with
  | none => exact ⟨by simp [CompetitionRun.sealWindow, sealedBodies], rfl, rfl⟩
  | some w =>
    cases hclose : windowEndTs (some w) run.snapshots with
    | none => simp [CompetitionRun.sealWindow, sealedBodies, hclose]
    | some close => simp [CompetitionRun.sealWindow, sealedBodies, hclose, CompetitionRun.emit]

theorem sealedBodies_tickText (window : Option RunWindow) (snapshots : List MarketState) :
    (sealedBodies format window snapshots).filterMap tickText = [] := by
  unfold sealedBodies
  split <;> rfl

theorem sealedBodies_step (window : Option RunWindow) (snapshots : List MarketState)
    (walk : Decoded × List SealedAction) :
    (sealedBodies format window snapshots).foldlM (bodyStep format) walk = .ok walk := by
  unfold sealedBodies
  split <;> rfl

/-- The configuration text of an event. -/
def configText (body : EventBody) : Option String :=
  if body.eventType = .windowConfig then body.resultPayloadJson.filter (· ≠ "") else none

theorem configText_of_call (call : Call) : ∀ body ∈ bodiesOf format call, configText body = none := by
  intro body hbody
  cases call with
  | feed snapshot results =>
    rcases List.mem_cons.mp hbody with rfl | hbody
    · rfl
    · obtain ⟨⟨agent, outcome⟩, -, rfl⟩ := List.mem_map.mp hbody
      cases outcome <;> rfl
  | feedClosing snapshot =>
    obtain rfl := List.mem_singleton.mp hbody
    rfl

/-- **The configuration** the checker reads is the one the seal emitted. -/
theorem config_of_calls {calls : List Call} {events : List RunEvent} {snapshots : List MarketState}
    (hevents : events.map RunEvent.toEventBody =
      calls.flatMap (bodiesOf format) ++ sealedBodies format window snapshots) :
    ∃ config, windowConfigFromEvents format events = .ok config ∧
      ∀ w close, window = some w → windowEndTs window snapshots = some close →
        config = some (sealedConfig w close) := by
  have hnone : (calls.flatMap (bodiesOf format)).findSome? configText = none := by
    rw [List.findSome?_eq_none_iff]
    intro body hbody
    obtain ⟨call, -, hbody⟩ := List.mem_flatMap.mp hbody
    exact configText_of_call call body hbody
  have hfound : (events.findSome? fun event => configText event.toEventBody) =
      (sealedBodies format window snapshots).findSome? configText := by
    have hmap : (events.findSome? fun event => configText event.toEventBody) =
        (events.map RunEvent.toEventBody).findSome? configText := by
      rw [List.findSome?_map]
      rfl
    rw [hmap, hevents, List.findSome?_append, hnone, Option.none_or]
  have hread : (events.findSome? fun event => if event.eventType = .windowConfig then
      event.resultPayloadJson.filter (· ≠ "") else none) =
      (sealedBodies format window snapshots).findSome? configText := hfound
  rw [windowConfigFromEvents, hread]
  cases window with
  | none => exact ⟨none, rfl, by simp⟩
  | some w =>
    cases hclose : windowEndTs (some w) snapshots with
    | none => exact ⟨none, by simp [sealedBodies, hclose], by simp⟩
    | some close =>
      refine ⟨some (sealedConfig w close), ?_, ?_⟩
      · have htext : configText (windowBody format w close) =
            (windowBody format w close).resultPayloadJson := by
          simp [configText, windowBody, Option.filter, payloadText_ne_empty]
        simp only [sealedBodies, hclose, List.findSome?_cons, htext]
        simp only [windowBody, loadsText_payloadText]
        rfl
      · rintro w' close' hw hclose'
        obtain rfl := Option.some.inj hw
        obtain rfl := Option.some.inj hclose'
        rfl

end Sealed

/-! ## Honest runs -/

/-- A run's calls, as its callers make them: agents with ids of their own, one outcome of each at
every `feed`, and snapshots with increasing ticks. -/
structure HonestCalls (agents : List Agent) (calls : List Call) : Prop where
  ids : (agents.map Agent.agentId).Nodup
  gathers : ∀ call ∈ calls, call.Gathers agents
  ticks : (calls.map Call.snapshot).Pairwise fun a b => a.tickSeq < b.tickSeq

section Honest

variable {agents : List Agent} {sourceMode : SourceMode} {runId : String} {hasSink : Bool}
  {calls : List Call} {run run' : CompetitionRun} {window window' : Option RunWindow}
  {result : RunResult}

theorem windowEndTs_stamp (window : Option RunWindow) (snapshots states : List MarketState) :
    windowEndTs (window.map (RunWindow.stamp states)) snapshots = windowEndTs window snapshots := by
  cases window <;> rfl

/-- The run before its seal holds what the calls gave it. -/
theorem HonestCalls.run_eq (hcalls : (CompetitionRun.start agents sourceMode runId hasSink).calls
      format calls = .ok run) :
    run.rawEvents.map RunEvent.toEventBody = calls.flatMap (bodiesOf format) ∧
      run.decisions = calls.flatMap decisionsOf ∧ run.snapshots = calls.map Call.snapshot ∧
      run.agents = agents ∧ run.sourceMode = sourceMode := by
  obtain ⟨hevents, hdecisions, hsnapshots, hsetup⟩ := calls_emitted hcalls
  exact ⟨hevents, hdecisions, hsnapshots, hsetup.agents, hsetup.sourceMode⟩

/-- **What the checker rebuilds** of an honest run is what it was sealed with. -/
theorem HonestCalls.rebuild_holds (hhonest : HonestCalls agents calls)
    (hcalls : (CompetitionRun.start agents sourceMode runId hasSink).calls format calls = .ok run) :
    ∃ rebuilt, rebuild format (run.sealWindow format window).rawEvents = .ok rebuilt ∧
      rebuilt.Holds (run.sealWindow format window) (window.map (RunWindow.stamp run.snapshots)) := by
  obtain ⟨hevents, hdecisions, hsnapshots, -⟩ := HonestCalls.run_eq hcalls
  obtain ⟨hsealed, hsealedDecisions, -⟩ := @sealWindow_emitted format run window
  rw [hevents] at hsealed
  have hconsistent : (run.sealWindow format window).Consistent :=
    ((CompetitionRun.Consistent.start agents sourceMode runId hasSink).calls hcalls).sealWindow window
  have hordered := hconsistent.increasing
  have hstates := marketstates_of_calls hsealed (sealedBodies_tickText window run.snapshots)
    hhonest.ticks
  have hactions := actions_of_calls hsealed (sealedBodies_step window run.snapshots) hordered
  obtain ⟨config, hconfig, hsealedConfig⟩ := config_of_calls hsealed
  refine ⟨⟨calls.map Call.snapshot, ((calls.flatMap decisionsOf).map sealedAction).reverse, config⟩,
    ?_, ?_, ?_, ?_⟩
  · rw [rebuild, hstates, hactions, hconfig]
    rfl
  · rw [sealWindow_snapshots, hsnapshots]
  · rw [hsealedDecisions, hdecisions]
  · intro w close hw hclose
    rw [sealWindow_snapshots, windowEndTs_stamp] at hclose
    obtain ⟨given, rfl, rfl⟩ := Option.map_eq_some_iff.mp hw
    rw [hsealedConfig given close rfl hclose]
    rfl

/-- What a seal's result is made of. -/
theorem result_parts (h : run.result format sha256 window = .ok result) :
    computeEvidenceHash format sha256 (run.rawEvents.map RunEvent.toDict) =
        .ok result.evidenceHash ∧
      run.decisions.mapM (scoreRow format sha256 run window result.evidenceHash) =
        .ok result.scoreRows ∧
      result.runEvents = run.rawEvents ∧ result.sourceMode = run.sourceMode ∧
      result.agentIds = run.agents.map Agent.agentId := by
  obtain ⟨evidenceHash, hhash, h⟩ := bind_eq_ok.mp h
  obtain ⟨rows, hrows, h⟩ := bind_eq_ok.mp h
  obtain rfl := Except.ok.inj h
  exact ⟨hhash, hrows, rfl, rfl, rfl⟩

/-- What an honest run is sealed with: decisions that are told apart, on its own snapshots, whose ticks
increase. -/
structure SealedRun (run : CompetitionRun) : Prop where
  keys : (run.decisions.map decisionKey).Nodup
  ticks : run.snapshots.Pairwise fun a b => a.tickSeq < b.tickSeq
  members : ∀ decision ∈ run.decisions, decision.2.2 ∈ run.snapshots

theorem HonestCalls.sealedRun (hhonest : HonestCalls agents calls)
    (hcalls : (CompetitionRun.start agents sourceMode runId hasSink).calls format calls = .ok run) :
    SealedRun (run.sealWindow format window) := by
  obtain ⟨-, hdecisions, hsnapshots, -⟩ := HonestCalls.run_eq hcalls
  obtain ⟨-, hsealedDecisions, -⟩ := @sealWindow_emitted format run window
  refine ⟨?_, ?_, ?_⟩
  · rw [hsealedDecisions, hdecisions]
    exact decisionKeys_nodup hhonest.ids hhonest.gathers hhonest.ticks
  · rw [sealWindow_snapshots, hsnapshots]
    exact hhonest.ticks
  · intro decision hdecision
    rw [hsealedDecisions, hdecisions] at hdecision
    obtain ⟨call, hcall, hdecision⟩ := List.mem_flatMap.mp hdecision
    rw [sealWindow_snapshots, hsnapshots, mem_decisionsOf hdecision]
    exact List.mem_map_of_mem hcall

/-- **Every row of an honest run** is found again. -/
theorem HonestCalls.rows_found (hhonest : HonestCalls agents calls)
    (hcalls : (CompetitionRun.start agents sourceMode runId hasSink).calls format calls = .ok run)
    (hresult : (run.sealWindow format window).result format sha256
      (window.map (RunWindow.stamp run.snapshots)) = .ok result) :
    ∃ rebuilt, rebuild format result.runEvents = .ok rebuilt ∧
      rebuilt.Holds (run.sealWindow format window) (window.map (RunWindow.stamp run.snapshots)) ∧
      List.Forall₂ (FoundAgain format rebuilt result.sourceMode) run.decisions result.scoreRows := by
  obtain ⟨rebuilt, hrebuilt, hholds⟩ :=
    @HonestCalls.rebuild_holds format agents sourceMode runId hasSink calls run window hhonest hcalls
  obtain ⟨-, hrows, hevents, hmode, -⟩ := result_parts hresult
  obtain ⟨-, hdecisions, -⟩ := @sealWindow_emitted format run window
  have hsealed : SealedRun (run.sealWindow format window) := hhonest.sealedRun hcalls
  refine ⟨rebuilt, by rw [hevents, hrebuilt], hholds, ?_⟩
  rw [hmode, ← hdecisions]
  refine (forall₂_mem (mapM_eq_ok.mp hrows)).imp ?_
  rintro decision row ⟨⟨hdecision, -⟩, hrow⟩
  exact scoreRow_checks hholds hsealed.ticks hsealed.keys hdecision
    (hsealed.members decision hdecision) hrow

/-- **Every honest run verifies.** The evidence of a sealed run hashes to its hash again, its metrics
are never found wrong, and for each of its decisions the checker finds the entry, the closing and the
action the seal used, and comes to what the row shows. -/
theorem honest_run_verifies (hhonest : HonestCalls agents calls)
    (hcalls : (CompetitionRun.start agents sourceMode runId hasSink).calls format calls = .ok run)
    (hfinalize : run.finalize format sha256 window (.ok ()) = (.ok result, run', window')) :
    (evidenceIntegrity format sha256 result).result = .pass ∧
      (∀ scores, scoreRun result = .ok scores →
        (metricsRecomputed format scores result).result ≠ .fail) ∧
      ∃ rebuilt, rebuild format result.runEvents = .ok rebuilt ∧
        closingsFromMarketstates rebuilt.states = closingSnapshots run.snapshots ∧
        List.Forall₂ (FoundAgain format rebuilt result.sourceMode) run.decisions
          result.scoreRows := by
  obtain ⟨hresult, -⟩ := finalize_ok hfinalize
  obtain ⟨rebuilt, hrebuilt, hholds, hfound⟩ := hhonest.rows_found hcalls hresult
  obtain ⟨hhash, -, hevents, -⟩ := result_parts hresult
  refine ⟨?_, ?_, rebuilt, hrebuilt, ?_, hfound⟩
  · rw [evidenceIntegrity, hevents, hhash]
    simp
  · intro scores hscores
    have hrows : ∃ rows, result.scoreRows.mapM (checkRow format rebuilt result.sourceMode) =
        .ok rows ∧ rows.flatten = [] := by
      refine ⟨result.scoreRows.map fun _ => [], ?_, by simp⟩
      rw [mapM_eq_ok, List.forall₂_map_right_iff, List.forall₂_same]
      intro row hrow
      obtain ⟨decision, -, hrowFound⟩ := exists_related_to_mem hfound hrow
      exact hrowFound.agrees
    obtain ⟨rows, hrows, hflat⟩ := hrows
    rw [metricsRecomputed]
    split_ifs
    · simp
    · simp [mismatches, hrebuilt, hrows, hscores, hflat, bind, Except.bind, pure, Except.pure]
  · rw [hholds.states, sealWindow_snapshots]
    rfl

end Honest

section Witness

/-- A snapshot that prices one market. -/
def pricedSnapshot : MarketState where
  fixtureId := 7
  tickSeq := 0
  ts := 100
  phase := 1
  markets := [("m", [("stable_prob_bps", .obj [("home", .int 5000)])])]
  scores := []
  marketsCanonical := by simp [marketsJson, Json.Canonical, Json.CanonicalFields]
  scoresCanonical := trivial

/-- An action on that market. -/
def flagged : AgentAction where
  type := .flagValue
  params := [("market_key", .str "m"), ("side", .str "home")]
  canonical := by
    simp only [Json.CanonicalFields, Json.Canonical]
    decide

/-- The agent that takes it. -/
def scout : Agent := { agentId := "scout", proofMode := "live" }

/-- A run of one decision, which closes on the snapshot it was taken on. -/
def flaggedRun : CompetitionRun :=
  ((CompetitionRun.start [scout] .replay "r" false).tick ratioFormat pricedSnapshot).record
    ratioFormat pricedSnapshot (scout, .acted flagged)

def flaggedCalls : List Call := [.feed pricedSnapshot [(scout, .acted flagged)]]

theorem flaggedCalls_honest : HonestCalls [scout] flaggedCalls where
  ids := List.nodup_singleton _
  gathers := by simp [flaggedCalls, Call.Gathers]
  ticks := List.pairwise_singleton _ _

theorem flaggedRun_calls : (CompetitionRun.start [scout] .replay "r" false).calls ratioFormat
    flaggedCalls = .ok flaggedRun := rfl

theorem flaggedRun_scores (evidenceHash : String) : ∃ verdict edgeBps,
    verdict.clvBps = .int 0 ∧ verdict.valid = true ∧
      scoreRow ratioFormat String.ofList flaggedRun none evidenceHash
          (scout, flagged, pricedSnapshot) =
        .ok (plainRow ratioFormat String.ofList evidenceHash (scout, flagged, pricedSnapshot)
          verdict edgeBps) :=
  ⟨_, _, rfl, rfl, rfl⟩

/-- The run seals, with one row. -/
theorem flaggedRun_seals : ∃ result verdict edgeBps,
    verdict.clvBps = .int 0 ∧ verdict.valid = true ∧
      result.agentIds = ["scout"] ∧
      result.scoreRows = [plainRow ratioFormat String.ofList result.evidenceHash
        (scout, flagged, pricedSnapshot) verdict edgeBps] ∧
      flaggedRun.finalize ratioFormat String.ofList none (.ok ()) =
        (.ok result, { flaggedRun with finalized := true }, none) := by
  have hconsistent : flaggedRun.Consistent :=
    (CompetitionRun.Consistent.start [scout] .replay "r" false).calls flaggedRun_calls
  have hhash : ∃ evidenceHash, computeEvidenceHash ratioFormat String.ofList
      (flaggedRun.rawEvents.map RunEvent.toDict) = .ok evidenceHash := ⟨_, hconsistent.evidenceHash⟩
  obtain ⟨evidenceHash, hhash⟩ := hhash
  obtain ⟨verdict, edgeBps, hclv, hvalid, hrow⟩ := flaggedRun_scores evidenceHash
  have hresult : ∃ result, result.agentIds = ["scout"] ∧ result.evidenceHash = evidenceHash ∧
      result.scoreRows = [plainRow ratioFormat String.ofList evidenceHash
        (scout, flagged, pricedSnapshot) verdict edgeBps] ∧
      flaggedRun.result ratioFormat String.ofList none = .ok result := by
    have hdecisions : flaggedRun.decisions = [(scout, flagged, pricedSnapshot)] := rfl
    simp only [CompetitionRun.result, hhash, hdecisions, List.mapM_cons, List.mapM_nil, hrow, bind,
      Except.bind]
    exact ⟨_, rfl, rfl, rfl, rfl⟩
  obtain ⟨result, hids, rfl, hrows, hresult⟩ := hresult
  refine ⟨result, verdict, edgeBps, hclv, hvalid, hids, hrows, ?_⟩
  have hseal : flaggedRun.sealWindow ratioFormat none = flaggedRun := rfl
  have hopen : flaggedRun.finalized = false := rfl
  simp only [CompetitionRun.finalize, hopen, hseal, Option.map_none, hresult, Bool.false_eq_true,
    if_false]

theorem honest_run_verifies_flagged : ∃ result rebuilt,
    result.scoreRows ≠ [] ∧ (evidenceIntegrity ratioFormat String.ofList result).result = .pass ∧
      rebuild ratioFormat result.runEvents = .ok rebuilt ∧
      List.Forall₂ (FoundAgain ratioFormat rebuilt result.sourceMode) flaggedRun.decisions
        result.scoreRows := by
  obtain ⟨result, verdict, edgeBps, -, -, -, hrows, hfinalize⟩ := flaggedRun_seals
  obtain ⟨hevidence, -, rebuilt, hrebuilt, -, hfound⟩ :=
    honest_run_verifies flaggedCalls_honest flaggedRun_calls hfinalize
  exact ⟨result, rebuilt, by simp [hrows], hevidence, hrebuilt, hfound⟩

end Witness

end Veridex.Checks
