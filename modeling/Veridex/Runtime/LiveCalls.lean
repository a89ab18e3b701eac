import Veridex.Checks.HonestRuns
import Veridex.Runtime.ObserverFailure

/-!
# A live window as a driver of its run (`runtime/live_runner.py`)

* `liveLoop_follows`: where the sink does not raise, the loop's run is the one its fed ticks make.
* `closeWindow_cases`: a window keeps its `pre_match` rule on a complete close only.
* `runLiveWindow_parts`: what a bundle that is returned was sealed from.
-/

namespace Veridex.Runtime

open Veridex.Py Veridex.Lib Veridex.Law Veridex.Scoring Veridex.Ingest Veridex.Verifier
open Veridex.Checks

variable {format : Json.FloatFormat PyFloat} {sha256 : List Char → String} {sink : Sink}
  {str : Decoded → String} {window : LiveWindow}

/-! ## The fed ticks -/

/-- The `feed` of a tick. -/
def feedCall (window : LiveWindow) (agents : List Agent) (arrival : Arrival) : Call :=
  .feed (filterMarkets arrival.tick window.marketAllowlist)
    (agents.map fun agent => (agent, arrival.decide agent))

theorem calls_append {calls calls' : List Call} : ∀ run : CompetitionRun,
    run.calls format (calls ++ calls') = run.calls format calls >>= fun run => run.calls format calls' := by
  induction calls with
  | nil => exact fun run => rfl
  | cons call calls ih =>
    intro run
    rw [List.cons_append, CompetitionRun.calls, CompetitionRun.calls, bind_assoc]
    congr 1
    funext middle
    exact ih middle

/-- The loop's state is made by some ticks, fed to a run one after the other. -/
structure LoopState.Follows (format : Json.FloatFormat PyFloat) (window : LiveWindow)
    (first : CompetitionRun) (fed : List Arrival) (state : LoopState) : Prop where
  called : first.calls format (fed.map (feedCall window first.agents)) = .ok state.run
  fedAny : state.fedAny = !fed.isEmpty
  seen : state.seenMarkets =
    fed.flatMap fun arrival => (filterMarkets arrival.tick window.marketAllowlist).markets.map Prod.fst

namespace LoopState.Follows

variable {first : CompetitionRun} {fed : List Arrival} {state state' : LoopState} {arrival : Arrival}

theorem agents (h : state.Follows format window first fed) : state.run.agents = first.agents :=
  (calls_emitted h.called).2.2.2.agents

theorem snapshots (h : state.Follows format window first fed) : state.run.snapshots =
    first.snapshots ++ fed.map fun arrival => filterMarkets arrival.tick window.marketAllowlist := by
  rw [(calls_emitted h.called).2.2.1, List.map_map]
  rfl

/-- What was fed is seen. -/
theorem seenMarket (h : state.Follows format window first fed) (hfirst : first.snapshots = [])
    {snapshot : MarketState} (hsnapshot : snapshot ∈ state.run.snapshots) {market : String × Params}
    (hmarket : market ∈ snapshot.markets) : market.1 ∈ state.seenMarkets := by
  rw [h.snapshots, hfirst, List.nil_append] at hsnapshot
  obtain ⟨arrival, harrival, rfl⟩ := List.mem_map.mp hsnapshot
  rw [h.seen]
  exact List.mem_flatMap.mpr ⟨arrival, harrival, List.mem_map_of_mem hmarket⟩

/-- A decision is of a fed tick. -/
theorem entries (h : state.Follows format window first fed) (hfirst : first.decisions = [])
    {decision : Agent × AgentAction × MarketState} (hdecision : decision ∈ state.run.decisions) :
    decision.2.2 ∈ state.run.snapshots := by
  obtain ⟨-, hdecisions, hsnapshots, -⟩ := calls_emitted h.called
  rw [hdecisions, hfirst, List.nil_append] at hdecision
  obtain ⟨call, hcall, hdecision⟩ := List.mem_flatMap.mp hdecision
  rw [hsnapshots, mem_decisionsOf hdecision]
  exact List.mem_append_right _ (List.mem_map_of_mem hcall)

/-- One tick more. -/
theorem feedTick (h : state.Follows format window first fed)
    (hfeed : state.feedTick format sink window arrival = .ok state') :
    state'.Follows format window first (fed ++ [arrival]) := by
  obtain ⟨run, hrun, hstate⟩ := bind_eq_ok.mp hfeed
  obtain rfl := Except.ok.inj hstate
  refine ⟨?_, by simp, ?_⟩
  · rw [List.map_append, calls_append]
    refine bind_eq_ok.mpr ⟨state.run, h.called, bind_eq_ok.mpr ⟨run, ?_, rfl⟩⟩
    rw [← h.agents]
    exact feedTo_ok hrun
  · rw [List.flatMap_append, ← h.seen]
    simp

end LoopState.Follows

/-- A close adds its tick and its snapshot, and no decision. -/
theorem feedClosing_emitted {run run' : CompetitionRun} {closing : MarketState}
    (h : run.feedClosing format closing = .ok run') :
    run'.rawEvents.map RunEvent.toEventBody =
        run.rawEvents.map RunEvent.toEventBody ++ [tickBody format closing] ∧
      run'.decisions = run.decisions ∧ run'.snapshots = run.snapshots ++ [closing] := by
  have hcall : run.call format (.feedClosing closing) = .ok run' := h
  obtain ⟨hbodies, hdecisions, hsnapshots, -⟩ := call_emitted hcall
  exact ⟨hbodies, hdecisions.trans (List.append_nil _), hsnapshots⟩

/-- **The loop's run** is the one its fed ticks make, where the sink does not raise on it. -/
theorem liveLoop_follows {first : CompetitionRun} {streamEnd : StreamEnd} {arrivals : List Arrival} :
    ∀ {state : LoopState} {fed : List Arrival}, state.Follows format window first fed →
      (∀ e, (liveLoop format sink window .finished state arrivals).2 ≠ .interrupted e) →
        ∃ fed', (liveLoop format sink window streamEnd state arrivals).1.Follows format window first fed' := by
  induction arrivals with
  | nil =>
    intro state fed h _
    refine ⟨fed, ?_⟩
    cases streamEnd <;> exact h
  | cons arrival arrivals ih =>
    intro state fed h hraise
    rw [liveLoop] at hraise ⊢
    by_cases hstop : (window.endRule = .manualStop && arrival.stopSet) = true
    · rw [if_pos hstop]
      exact ⟨fed, h⟩
    · rw [if_neg hstop] at hraise ⊢
      by_cases hfixture : arrival.tick.fixtureId ≠ window.fixtureId
      · rw [if_pos hfixture] at hraise ⊢
        exact ih h hraise
      · rw [if_neg hfixture] at hraise ⊢
        cases hclose : closesOn window state arrival.tick with
        | some loopEnd => exact ⟨fed, h⟩
        | none =>
          cases hfeed : state.feedTick format sink window arrival with
          | ok state' =>
            simp only [hclose, hfeed] at hraise ⊢
            exact ih (h.feedTick hfeed) hraise
          | error raised =>
            simp only [hclose, hfeed] at hraise
            exact absurd rfl (hraise raised.error)

/-! ## The close -/

/-- A close that covers what was fed, sealed after it. -/
structure CompleteClose (format : Json.FloatFormat PyFloat) (str : Decoded → String)
    (window : LiveWindow) (state : LoopState) (fetched : Except PyExc (List Params))
    (run : CompetitionRun) (updates : List Params) (closing : MarketState) : Prop where
  preMatch : window.endRule = .preMatch
  fetched : fetched = .ok updates
  reconstructed : reconstructClosingState str updates window.marketAllowlist (state.lastTickSeq + 1) =
    .ok (some closing)
  fed : state.run.feedClosing format closing = .ok run
  covers : ∀ market ∈ state.seenMarkets, (closing.markets.lookup market).isSome

theorem sealClosing_cases {state : LoopState} {fetched : Except PyExc (List Params)}
    {run : CompetitionRun} {ops : Ops} {effective : RunWindow}
    (hrule : window.endRule = .preMatch)
    (h : sealClosing format sink str window state fetched = .ok (run, ops, effective)) :
    (effective = window.toRunWindow ∧ ∃ updates closing,
        CompleteClose format str window state fetched run updates closing) ∨
      (effective.endRule ≠ .preMatch ∧
        (run = state.run ∨ ∃ closing, state.run.feedClosing format closing = .ok run)) := by
  unfold sealClosing at h
  split at h
  · obtain ⟨rfl, -, rfl⟩ := Prod.mk.inj (Except.ok.inj h) |>.imp id Prod.mk.inj
    exact .inr ⟨by simp [LiveWindow.degraded], .inl rfl⟩
  · obtain ⟨rfl, -, rfl⟩ := Prod.mk.inj (Except.ok.inj h) |>.imp id Prod.mk.inj
    exact .inr ⟨by simp [LiveWindow.degraded], .inl rfl⟩
  · rename_i closing hclosing
    obtain ⟨updates, hupdates, hclosing⟩ := bind_eq_ok.mp hclosing
    obtain ⟨fedRun, hfed, h⟩ := bind_eq_ok.mp h
    have hfed : state.run.feedClosing format closing = .ok fedRun := by
      cases hto : state.run.feedClosingTo format sink closing with
      | error raised =>
        rw [hto] at hfed
        exact nomatch hfed
      | ok made =>
        rw [hto] at hfed
        obtain rfl := Except.ok.inj hfed
        exact feedClosingTo_ok hto
    simp only at h
    split_ifs at h with hmissing
    · obtain ⟨rfl, -, rfl⟩ := Prod.mk.inj (Except.ok.inj h) |>.imp id Prod.mk.inj
      exact .inr ⟨by simp [LiveWindow.degraded], .inr ⟨closing, hfed⟩⟩
    · obtain ⟨rfl, -, rfl⟩ := Prod.mk.inj (Except.ok.inj h) |>.imp id Prod.mk.inj
      refine .inl ⟨rfl, updates, closing, hrule, hupdates, hclosing, hfed, ?_⟩
      intro market hmarket
      have hcovered := List.filter_eq_nil_iff.mp (not_not.mp hmissing) market hmarket
      exact Option.isSome_iff_ne_none.mpr fun hnone => hcovered (by rw [hnone]; rfl)

/-- How a window is closed: on a complete close under its rule, or under a rule that is not `pre_match`,
or with nothing fed. -/
theorem closeWindow_cases {state : LoopState} {loopEnd : LoopEnd}
    {fetched : Except PyExc (List Params)} {run : CompetitionRun} {ops : Ops} {effective : RunWindow}
    (h : closeWindow format sink str window state loopEnd fetched = .ok (run, ops, effective)) :
    (effective = window.toRunWindow ∧ (∀ e, loopEnd ≠ .interrupted e) ∧ ∃ updates closing,
        CompleteClose format str window state fetched run updates closing) ∨
      ((effective.endRule ≠ .preMatch ∨ state.fedAny = false) ∧
        (run = state.run ∨ ∃ closing, state.run.feedClosing format closing = .ok run)) := by
  have hrest : ∀ loopEnd : LoopEnd, (∀ e, loopEnd ≠ .interrupted e) →
      (if window.endRule = .preMatch && state.fedAny then
          sealClosing format sink str window state fetched
        else .ok (state.run, {}, window.toRunWindow)) = .ok (run, ops, effective) →
      (effective = window.toRunWindow ∧ (∀ e, loopEnd ≠ .interrupted e) ∧ ∃ updates closing,
          CompleteClose format str window state fetched run updates closing) ∨
        ((effective.endRule ≠ .preMatch ∨ state.fedAny = false) ∧
          (run = state.run ∨ ∃ closing, state.run.feedClosing format closing = .ok run)) := by
    intro loopEnd hend h
    split_ifs at h with hsealed
    · rw [Bool.and_eq_true, decide_eq_true_eq] at hsealed
      rcases sealClosing_cases hsealed.1 h with ⟨heffective, hcomplete⟩ | ⟨hrule, hrun⟩
      · exact .inl ⟨heffective, hend, hcomplete⟩
      · exact .inr ⟨.inl hrule, hrun⟩
    · obtain ⟨rfl, -, rfl⟩ := Prod.mk.inj (Except.ok.inj h) |>.imp id Prod.mk.inj
      refine .inr ⟨?_, .inl rfl⟩
      by_cases hrule : window.endRule = .preMatch
      · exact .inr (by simpa [hrule] using hsealed)
      · exact .inl hrule
  cases loopEnd with
  | interrupted e =>
    rw [closeWindow] at h
    split_ifs at h with hfed hrule
    · obtain ⟨rfl, -, rfl⟩ := Prod.mk.inj (Except.ok.inj h) |>.imp id Prod.mk.inj
      exact .inr ⟨.inl (by simp [LiveWindow.degraded]), .inl rfl⟩
    · obtain ⟨rfl, -, rfl⟩ := Prod.mk.inj (Except.ok.inj h) |>.imp id Prod.mk.inj
      exact .inr ⟨.inl hrule, .inl rfl⟩
  | finished => exact hrest .finished (by simp) h
  | stopped => exact hrest .stopped (by simp) h
  | kickoff => exact hrest .kickoff (by simp) h
  | elapsed => exact hrest .elapsed (by simp) h

/-! ## The bundle -/

/-- What a bundle was sealed from. -/
structure SealedFrom (format : Json.FloatFormat PyFloat) (sha256 : List Char → String)
    (str : Decoded → String) (inputs : LiveInputs) (bundle : LiveRunResult) (run : CompetitionRun)
    (ops : Ops) (effective : RunWindow) : Prop where
  closed : closeWindow format inputs.answers str inputs.window (inputs.loop format).1
    (inputs.loop format).2 inputs.fetched = .ok (run, ops, effective)
  result : (run.sealWindow format (some effective)).result format sha256
    (some (RunWindow.stamp run.snapshots effective)) = .ok bundle.run
  scores : scoreRun bundle.run = .ok bundle.scores
  hash : bundle.manifestHash = liveManifestHash format sha256 inputs bundle.run bundle.scores

theorem runLiveWindow_parts {inputs : LiveInputs} {bundle : LiveRunResult}
    (h : runLiveWindow format sha256 str inputs = .ok bundle) :
    ∃ run ops effective, SealedFrom format sha256 str inputs bundle run ops effective := by
  obtain ⟨⟨run, ops, effective⟩, hclosed, h⟩ := bind_eq_ok.mp h
  obtain ⟨result, hresult, h⟩ := bind_eq_ok.mp h
  obtain ⟨scores, hscores, h⟩ := bind_eq_ok.mp h
  have hbundle : bundle.run = result ∧ bundle.scores = scores ∧
      bundle.manifestHash = liveManifestHash format sha256 inputs result scores := by
    cases hanchor : inputs.anchor with
    | none =>
      simp only [hanchor] at h
      obtain rfl := Except.ok.inj h
      exact ⟨rfl, rfl, rfl⟩
    | some anchor =>
      simp only [hanchor] at h
      obtain ⟨signature, -, h⟩ := bind_eq_ok.mp h
      obtain rfl := Except.ok.inj h
      exact ⟨rfl, rfl, rfl⟩
  obtain ⟨rfl, rfl, hhash⟩ := hbundle
  refine ⟨run, ops, effective, hclosed, ?_, hscores, hhash⟩
  unfold CompetitionRun.finalizeTo at hresult
  split_ifs at hresult
  obtain ⟨sealedRun, hsealed, hresult⟩ := bind_eq_ok.mp hresult
  obtain ⟨result', hresult', hpersist⟩ := bind_eq_ok.mp hresult
  obtain ⟨_, -, hpersist⟩ := bind_eq_ok.mp hpersist
  obtain rfl := Except.ok.inj hpersist
  cases hto : run.sealWindowTo format inputs.answers (some effective) with
  | error raised =>
    rw [hto] at hsealed
    exact nomatch hsealed
  | ok made =>
    rw [hto] at hsealed
    obtain rfl := Except.ok.inj hsealed
    rw [sealWindowTo_ok hto] at hresult'
    exact hresult'

/-- The loop of a window whose bundle is returned is what its fed ticks make. -/
theorem follows_of_ok {inputs : LiveInputs} {bundle : LiveRunResult}
    (h : runLiveWindow format sha256 str inputs = .ok bundle) :
    ∃ fed, (inputs.loop format).1.Follows format inputs.window inputs.start.run fed := by
  have hstart : inputs.start.Follows format inputs.window inputs.start.run [] := ⟨rfl, rfl, rfl⟩
  refine liveLoop_follows hstart ?_
  intro e he
  exact not_sinkRaises_of_ok h ⟨e, he⟩

end Veridex.Runtime
