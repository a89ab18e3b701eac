import Veridex.Runtime.ClosingLine
import Veridex.Runtime.LiveCalls

/-!
# What a live window calls true closing-line value (`runtime/live_runner.py`)

A row keeps its value as `clv_bps` on a window that was finalized as `pre_match`, far enough from its
close; and a window is finalized so on a complete reconstructed close only.

* `scoreRow_scored`: what a row that is scored was scored with.
* `scoredRow_trueClv`: what a scored row of a bundle claims.
* `clv_label_honest`: the rows of a bundle and the decisions they are of.
-/

namespace Veridex.Runtime

open Veridex.Py Veridex.Lib Veridex.Law Veridex.Scoring Veridex.Ingest Veridex.Verifier
open Veridex.Checks

variable {format : Json.FloatFormat PyFloat} {sha256 : List Char → String}
  {str : Decoded → String}

/-! ## A row that is scored -/

section

variable {window : RunWindow} {close : ℤ} {snapshot : MarketState} {run : CompetitionRun}
  {evidenceHash : String} {decision : Agent × AgentAction × MarketState} {verdict : Verdict}
  {edgeBps : ℤ} {row : Params}

/-- A row the window leaves scored is of a `pre_match` window, and early enough. -/
theorem windowRow_scored
    (h : isScored (windowRow (some window) (some close) snapshot
      (plainRow format sha256 evidenceHash decision verdict edgeBps)) = true) :
    window.endRule = .preMatch ∧ window.minClvHorizonS ≤ close - snapshot.ts ∧
      isScored (plainRow format sha256 evidenceHash decision verdict edgeBps) = true ∧
      windowRow (some window) (some close) snapshot
          (plainRow format sha256 evidenceHash decision verdict edgeBps) =
        plainRow format sha256 evidenceHash decision verdict edgeBps := by
  simp only [windowRow] at h ⊢
  split_ifs at h ⊢ with hscored hnear hname
  · rw [isScored, Bool.and_eq_true] at h
    have hvalue := h.2
    rw [field, Json.lookup_setField] at hvalue
    cases hvalue
  · rw [isScored, Bool.and_eq_true] at h
    have hvalue : (Decoded.properInt .null).isSome = true := by
      have hrule : clvFieldName window.endRule = "window_clv_bps" := by
        cases hend : window.endRule with
        | preMatch => exact absurd (by rw [hend]; rfl) hname
        | fixedDuration => rfl
        | manualStop => rfl
      have h2 := h.2
      rw [hrule] at h2
      exact h2
    cases hvalue
  · refine ⟨?_, ?_, hscored, rfl⟩
    · cases hend : window.endRule with
      | preMatch => rfl
      | fixedDuration | manualStop => simp [hend, clvFieldName] at hname
    · simpa [isPendingHorizon] using hnear
  · exact absurd h hscored

theorem scoreRow_scored (hclose : windowEndTs (some window) run.snapshots = some close)
    (h : scoreRow format sha256 run (some window) evidenceHash decision = .ok row)
    (hscored : isScored row = true) :
    window.endRule = .preMatch ∧ window.minClvHorizonS ≤ close - decision.2.2.ts ∧
      ∃ key closing entryBps closingBps, decision.2.1.param "market_key" = .str key ∧
        closingSnapshots run.snapshots key = some closing ∧
        probBps decision.2.2 (.str key) (decision.2.1.param "side") = .ok entryBps ∧
        probBps closing (.str key) (decision.2.1.param "side") = .ok closingBps ∧
        closingBps.sub entryBps = .ok (field row "clv_bps") := by
  obtain ⟨closing, hclosing, h⟩ := bind_eq_ok.mp h
  obtain ⟨verdict, hverdict, h⟩ := bind_eq_ok.mp h
  obtain ⟨edgeBps, -, h⟩ := bind_eq_ok.mp h
  obtain rfl := Except.ok.inj h
  rw [hclose] at hscored ⊢
  obtain ⟨hrule, hfar, hplain, hsame⟩ := windowRow_scored hscored
  rw [hsame]
  rw [isScored, Bool.and_eq_true] at hplain
  obtain ⟨hvalid, hwhole⟩ := hplain
  obtain ⟨closingState, entryBps, closingBps, rfl, hkey, hentry, hclosingBps, hclv⟩ :=
    recompute_measured hverdict hvalid hwhole
  rw [closingFor, if_pos hkey] at hclosing
  obtain ⟨name, hname, hfound⟩ := bind_eq_ok.mp hclosing
  obtain ⟨key, rfl, hlast⟩ := Option.bind_eq_some_iff.mp (Except.ok.inj hfound)
  have hparam : decision.2.1.param "market_key" = .str key := by
    cases hvalue : decision.2.1.param "market_key" with
    | str s =>
      rw [hvalue] at hname
      rw [Option.some.inj (Except.ok.inj hname)]
    | null | bool _ | int _ | float _ | arr _ | obj _ =>
      rw [hvalue] at hname
      exact nomatch hname
  rw [hparam] at hentry hclosingBps
  exact ⟨hrule, hfar, key, closingState, entryBps, closingBps, hparam, hlast, hentry, hclosingBps,
    hclv⟩

end

/-! ## The close of a market -/

theorem closingSnapshots_concat (states : List MarketState) {closing : MarketState} {key : String}
    (h : (closing.markets.lookup key).isSome) :
    closingSnapshots (states ++ [closing]) key = some closing := by
  have hmarkets : ∀ (markets : List (String × Params)) (before : String → Option MarketState),
      (before key = some closing ∨ (markets.lookup key).isSome) →
      markets.foldl (fun (before : String → Option MarketState) market =>
        Function.update before market.1 (some closing)) before key = some closing := by
    intro markets
    induction markets with
    | nil => exact fun before hbefore => hbefore.resolve_right (by simp)
    | cons market rest ih =>
      intro before hbefore
      rw [List.foldl_cons]
      by_cases hkey : key = market.1
      · exact ih _ (.inl (by rw [hkey, Function.update_self]))
      · refine ih _ (hbefore.imp ?_ ?_)
        · rw [Function.update_of_ne hkey]
          exact id
        · rw [List.lookup_cons, beq_false_of_ne hkey]
          exact id
  rw [closingSnapshots, List.foldl_append]
  exact hmarkets _ _ (.inr h)

theorem lookup_of_probBps {state : MarketState} {key : String} {side bps : Decoded}
    (h : probBps state (.str key) side = .ok bps) :
    ∃ market, state.markets.lookup key = some market := by
  obtain ⟨market, hmarket, -⟩ := bind_eq_ok.mp h
  obtain ⟨name, hname, hmarket⟩ := Decoded.item_obj_ok.mp hmarket
  obtain rfl := Option.some.inj (Except.ok.inj hname)
  rw [lookup_map] at hmarket
  obtain ⟨fields, hfields, -⟩ := Option.map_eq_some_iff.mp hmarket
  exact ⟨fields, hfields⟩

/-! ## The rows of a bundle -/

/-- What true closing-line value is claimed on: a window that went to its end, a close that covers every
market that was fed, sealed after all of it, an entry early enough, and that close's own line. -/
structure TrueClv (format : Json.FloatFormat PyFloat) (str : Decoded → String) (inputs : LiveInputs)
    (bundle : LiveRunResult) (decision : Agent × AgentAction × MarketState) (row : Params)
    (updates : List Params) (closing : MarketState) : Prop where
  preMatch : inputs.window.endRule = .preMatch
  uninterrupted : ∀ e, (inputs.loop format).2 ≠ .interrupted e
  fetched : inputs.fetched = .ok updates
  reconstructed : reconstructClosingState str updates inputs.window.marketAllowlist
    ((inputs.loop format).1.lastTickSeq + 1) = .ok (some closing)
  covers : ∀ snapshot ∈ (inputs.loop format).1.run.snapshots, ∀ market ∈ snapshot.markets,
    (closing.markets.lookup market.1).isSome
  sealedLast : bundle.run.runEvents.map RunEvent.toEventBody =
    (inputs.loop format).1.run.rawEvents.map RunEvent.toEventBody ++
      [tickBody format closing, windowBody format inputs.window.toRunWindow closing.ts]
  early : inputs.window.minClvHorizonS ≤ closing.ts - decision.2.2.ts
  value : ∃ key update bps entryBps, decision.2.1.param "market_key" = .str key ∧
    closingUpdate str updates key = some update ∧
    updateBps update (decision.2.1.param "side") = .ok (.int bps) ∧
    probBps decision.2.2 (.str key) (decision.2.1.param "side") = .ok entryBps ∧
    Decoded.sub (.int bps) entryBps = .ok (field row "clv_bps")

/-- A row says what it may: a scored one true value, and no row both values. -/
structure HonestRow (format : Json.FloatFormat PyFloat) (str : Decoded → String) (inputs : LiveInputs)
    (bundle : LiveRunResult) (decision : Agent × AgentAction × MarketState) (row : Params) :
    Prop where
  scored : isScored row = true → ∃ updates closing,
    TrueClv format str inputs bundle decision row updates closing
  apart : row.lookup "clv_bps" = none ∨ row.lookup "window_clv_bps" = none

variable {inputs : LiveInputs} {bundle : LiveRunResult}

/-- A bundle's rows are its fed run's decisions, scored. -/
theorem bundle_rows {run : CompetitionRun} {ops : Ops} {effective : RunWindow}
    (hparts : SealedFrom format sha256 str inputs bundle run ops effective) :
    List.Forall₂ (fun decision row => scoreRow format sha256
        (run.sealWindow format (some effective)) (some (RunWindow.stamp run.snapshots effective))
        bundle.run.evidenceHash decision = .ok row)
      (inputs.loop format).1.run.decisions bundle.run.scoreRows := by
  obtain ⟨-, hrows, -⟩ := result_parts hparts.result
  obtain ⟨-, hsealedDecisions, -⟩ := @sealWindow_emitted format run (some effective)
  have hdecisions : run.decisions = (inputs.loop format).1.run.decisions := by
    rcases closeWindow_cases hparts.closed with
      ⟨-, -, updates, closing, hcomplete⟩ | ⟨-, rfl | ⟨closing, hfed⟩⟩
    · exact (feedClosing_emitted hcomplete.fed).2.1
    · rfl
    · exact (feedClosing_emitted hfed).2.1
  rw [hsealedDecisions, hdecisions] at hrows
  exact mapM_eq_ok.mp hrows

/-- A scored row claims what it may. -/
theorem scoredRow_trueClv (h : runLiveWindow format sha256 str inputs = .ok bundle) :
    List.Forall₂ (fun decision row => isScored row = true → ∃ updates closing,
        TrueClv format str inputs bundle decision row updates closing)
      (inputs.loop format).1.run.decisions bundle.run.scoreRows := by
  obtain ⟨fed, hfollows⟩ := follows_of_ok h
  obtain ⟨run, ops, effective, hparts⟩ := runLiveWindow_parts h
  obtain ⟨-, -, hevents, -⟩ := result_parts hparts.result
  obtain ⟨hsealed, -, -⟩ := @sealWindow_emitted format run (some effective)
  refine (forall₂_mem (bundle_rows hparts)).imp ?_
  rintro decision row ⟨⟨hdecision, -⟩, hrow⟩ hscored
  have hentry := hfollows.entries rfl hdecision
  rcases closeWindow_cases hparts.closed with
    ⟨rfl, hend, updates, closing, hcomplete⟩ | ⟨hrule, hrun⟩
  · obtain ⟨hbodies, -, hsnapshots⟩ := feedClosing_emitted hcomplete.fed
    have hclose : ∀ window : RunWindow,
        windowEndTs (some window) run.snapshots = some closing.ts := by
      intro window
      simp [windowEndTs, hsnapshots]
    obtain ⟨hpre, hearly, key, closingState, entryBps, closingBps, hkey, hlast, hentryBps,
      hclosingBps, hclv⟩ := scoreRow_scored (by rw [sealWindow_snapshots, hclose]) hrow hscored
    have hcovers : ∀ snapshot ∈ (inputs.loop format).1.run.snapshots,
        ∀ market ∈ snapshot.markets, (closing.markets.lookup market.1).isSome := by
      intro snapshot hsnapshot market hmarket
      exact hcomplete.covers market.1 (hfollows.seenMarket rfl hsnapshot hmarket)
    obtain ⟨market, hmarket⟩ := lookup_of_probBps hentryBps
    have hclosing : (closing.markets.lookup key).isSome :=
      hcovers _ hentry _ (mem_of_lookup hmarket)
    rw [sealWindow_snapshots, hsnapshots, closingSnapshots_concat _ hclosing] at hlast
    obtain rfl := Option.some.inj hlast
    obtain ⟨update, bps, hupdate, hbps, rfl⟩ := closing_bps hcomplete.reconstructed hclosingBps
    refine ⟨updates, closing, hpre, hend, hcomplete.fetched, hcomplete.reconstructed, hcovers, ?_,
      hearly, key, update, bps, entryBps, hkey, hupdate, hbps, hentryBps, hclv⟩
    have hseals : sealedBodies format (some inputs.window.toRunWindow) run.snapshots =
        [windowBody format inputs.window.toRunWindow closing.ts] := by
      simp [sealedBodies, hclose]
    rw [hevents, hsealed, hbodies, hseals, List.append_assoc]
    rfl
  · -- Under another rule a scored row is renamed; and a run that was fed nothing decides nothing.
    exfalso
    have hmem : decision.2.2 ∈ run.snapshots := by
      rcases hrun with rfl | ⟨closing, hfed⟩
      · exact hentry
      · rw [(feedClosing_emitted hfed).2.2]
        exact List.mem_append_left _ hentry
    obtain ⟨last, hlast⟩ := Option.isSome_iff_exists.mp
      (List.getLast?_isSome.mpr (List.ne_nil_of_mem hmem))
    have hclose : windowEndTs (some (RunWindow.stamp run.snapshots effective))
        (run.sealWindow format (some effective)).snapshots = some last.ts := by
      simp [windowEndTs, hlast]
    obtain ⟨hpre, -⟩ := scoreRow_scored hclose hrow hscored
    rcases hrule with hne | hnone
    · exact hne hpre
    · rw [hfollows.fedAny, Bool.not_eq_false', List.isEmpty_iff] at hnone
      subst hnone
      rw [hfollows.snapshots] at hentry
      exact List.not_mem_nil hentry

/-- **The label does not lie**, of any window that is returned. -/
theorem clv_label_honest (h : runLiveWindow format sha256 str inputs = .ok bundle) :
    List.Forall₂ (HonestRow format str inputs bundle) (inputs.loop format).1.run.decisions
      bundle.run.scoreRows := by
  obtain ⟨run, ops, effective, hparts⟩ := runLiveWindow_parts h
  refine (forall₂_mem (scoredRow_trueClv h)).imp ?_
  rintro decision row ⟨⟨-, hrow⟩, hscored⟩
  refine ⟨hscored, ?_⟩
  obtain ⟨decision', -, hrow⟩ := exists_related_to_mem (bundle_rows hparts) hrow
  obtain ⟨verdict, -, -, hvalue⟩ := scoreRow_ok hrow
  cases hvalue with
  | clv _ _ hwindow => exact .inr hwindow
  | windowClv _ _ _ _ _ hclv => exact .inl hclv
  | pending _ _ _ _ _ _ _ hwindow => exact .inr hwindow

section Witness

/-- A tick before kickoff, with one priced side. -/
def pricedTick : MarketState where
  fixtureId := 7
  tickSeq := 0
  ts := 100
  phase := 0
  markets := [("OU|FT|2.5", [("stable_prob_bps", .obj [("over", .int 6000)])])]
  scores := []
  marketsCanonical := by simp [marketsJson, Json.Canonical, Json.CanonicalFields]
  scoresCanonical := trivial

/-- An action on that side. -/
def flaggedOver : AgentAction where
  type := .flagValue
  params := [("market_key", .str "OU|FT|2.5"), ("side", .str "over")]
  canonical := by
    simp only [Json.CanonicalFields, Json.Canonical]
    decide

/-- An update of that market, not in-running. -/
def pricedUpdate : Params :=
  [("FixtureId", .int 7), ("Ts", .int 200000), ("SuperOddsType", .str "OU"),
    ("MarketPeriod", .str "FT"), ("MarketParameters", .str "2.5"),
    ("PriceNames", .arr [.str "over"]), ("Pct", .arr [.float (.fin 66)])]

/-- A `pre_match` window over that tick, whose stream comes to its end. -/
def pricedInputs : LiveInputs where
  window := { windowId := "w", endRule := .preMatch, fixtureId := 7, marketAllowlist := ["OU"] }
  agents := [scout]
  runId := "r"
  arrivals := [{ tick := pricedTick, decide := fun _ => .acted flaggedOver }]
  fetched := .ok [pricedUpdate]

/-- The close it is sealed on. -/
def pricedClose : MarketState where
  fixtureId := 7
  tickSeq := 1
  ts := 200
  phase := 0
  markets := [("OU|FT|2.5", [("stable_price", .obj []),
    ("stable_prob_bps", .obj [("over", .int 6600)]), ("suspended", .bool false)])]
  scores := []
  marketsCanonical := by
    simp only [marketsJson, Json.Canonical, Json.CanonicalFields, List.map]
    decide
  scoresCanonical := trivial

theorem pricedUpdate_market : marketOf pricedUpdate = .ok [("stable_prob_bps",
    .obj [("over", .int 6600)]), ("stable_price", .obj []), ("suspended", .bool false)] := by
  have hround : roundInt ((PyFloat.fin 66).mul (.fin 100)) = .ok 6600 := by
    have hwhole := pyRound_intCast 6600
    rw [PyFloat.mul, roundInt]
    norm_num at hwhole ⊢
    exact hwhole
  have htable : tableOf (fun x => do return .int (← roundInt (x.mul (.fin 100))))
      [(.str "over", .float (.fin 66))] = .ok [("over", .int 6600)] := by
    simp only [tableOf, tryFloat, Decoded.toFloat, Decoded.scalar, Value.toFloat, bind, Except.bind,
      hround]
    rfl
  have hparts : marketOf pricedUpdate = (do
      let table ← tableOf (fun x => do return .int (← roundInt (x.mul (.fin 100))))
        [(.str "over", .float (.fin 66))]
      return [("stable_prob_bps", .obj (Json.dictOf table)), ("stable_price", .obj []),
        ("suspended", .bool (Json.dictOf table).isEmpty)]) := rfl
  rw [hparts, htable]
  rfl

theorem pricedClose_reconstructed (str : Decoded → String) :
    reconstructClosingState str [pricedUpdate] ["OU"] 1 = .ok (some pricedClose) := by
  have hparts : reconstructClosingState str [pricedUpdate] ["OU"] 1 = (do
      let market ← marketOf pricedUpdate
      let closing ← MarketState.ofJson (.obj [("fixture_id", .int 7), ("tick_seq", .int 1),
        ("ts", .int 200), ("phase", .int 0), ("markets", .obj [("OU|FT|2.5", .obj market)]),
        ("scores", .obj [])])
      return some (filterMarkets closing ["OU"])) := rfl
  rw [hparts, pricedUpdate_market]
  rfl

/-- The run of the window, as far as its close. -/
def pricedRun : CompetitionRun :=
  (((CompetitionRun.start [scout] .live "r" false).tick ratioFormat pricedTick).record ratioFormat
    pricedTick (scout, .acted flaggedOver)).tick ratioFormat pricedClose

theorem pricedRun_calls : (CompetitionRun.start [scout] .live "r" false).calls ratioFormat
    [.feed pricedTick [(scout, .acted flaggedOver)], .feedClosing pricedClose] = .ok pricedRun :=
  rfl

theorem pricedInputs_closes (str : Decoded → String) :
    closeWindow ratioFormat pricedInputs.answers str pricedInputs.window
        (pricedInputs.loop ratioFormat).1 .finished pricedInputs.fetched =
      .ok (pricedRun, {}, pricedInputs.window.toRunWindow) := by
  have hfetched : (do
      let updates ← pricedInputs.fetched
      reconstructClosingState str updates pricedInputs.window.marketAllowlist
        ((pricedInputs.loop ratioFormat).1.lastTickSeq + 1)) = .ok (some pricedClose) :=
    pricedClose_reconstructed str
  change sealClosing ratioFormat pricedInputs.answers str pricedInputs.window
    (pricedInputs.loop ratioFormat).1 pricedInputs.fetched = _
  rw [sealClosing]
  simp only [hfetched]
  rfl

/-- That run, sealed. -/
def pricedSeal : CompetitionRun :=
  pricedRun.sealWindow ratioFormat (some pricedInputs.window.toRunWindow)

/-- Its row, whatever its hashes. -/
def pricedRow (evidenceHash : String) (verdict : Verdict) (edgeBps : ℤ) : Params :=
  plainRow ratioFormat String.ofList evidenceHash (scout, flaggedOver, pricedTick) verdict edgeBps

theorem pricedSeal_scores (evidenceHash : String) : ∃ edge kelly reason edgeBps,
    scoreRow ratioFormat String.ofList pricedSeal
        (some (RunWindow.stamp pricedRun.snapshots pricedInputs.window.toRunWindow)) evidenceHash
        (scout, flaggedOver, pricedTick) =
      .ok (pricedRow evidenceHash ⟨edge, .int 600, kelly, true, reason⟩ edgeBps) :=
  ⟨_, _, _, _, rfl⟩

theorem asFloat_small {q : ℚ} (h : |q| ≤ 10000) : asFloat q = .ok q := by
  rw [asFloat, if_pos (h.trans_lt PyFloat.small_lt_overflowBound)]

theorem pricedRow_scored {result : RunResult} {evidenceHash reason : String} {edge : Decoded}
    {kelly : PyFloat} {edgeBps : ℤ} (hids : result.agentIds = ["scout"])
    (hrows : result.scoreRows =
      [pricedRow evidenceHash ⟨edge, .int 600, kelly, true, reason⟩ edgeBps]) :
    ∃ scores, scoreRun result = .ok scores := by
  have hscored : scoredRows [pricedRow evidenceHash ⟨edge, .int 600, kelly, true, reason⟩ edgeBps] =
      .ok [⟨.fin 0, 600, none⟩] := rfl
  have hwindow : [pricedRow evidenceHash ⟨edge, .int 600, kelly, true, reason⟩ edgeBps].filterMap
      (fun row => intValue row "window_clv_bps") = [] := rfl
  have haverage : average 600 1 = .ok (some 600) := by
    simp [average, asFloat_small (q := 600) (by norm_num)]
  have hdrawdown : maxDrawdown [600] = .ok 0 := by
    simp [maxDrawdown, drawdownFrom, asFloat_small (q := 0) (by norm_num), bind, Except.bind]
  have hmetrics : ∃ metrics, agentMetrics "scout" (proofModeOf result "scout")
      [pricedRow evidenceHash ⟨edge, .int 600, kelly, true, reason⟩ edgeBps] = .ok metrics := by
    simp only [agentMetrics, hscored, hwindow, bind, Except.bind, List.map_cons, List.map_nil,
      List.sum_singleton, List.length_singleton, haverage, hdrawdown]
    exact ⟨_, rfl⟩
  obtain ⟨metrics, hmetrics⟩ := hmetrics
  have hgroups : rowsByAgent ["scout"]
      [("scout", pricedRow evidenceHash ⟨edge, .int 600, kelly, true, reason⟩ edgeBps)] =
        [("scout", [pricedRow evidenceHash ⟨edge, .int 600, kelly, true, reason⟩ edgeBps])] := rfl
  have hid : agentIdOf (pricedRow evidenceHash ⟨edge, .int 600, kelly, true, reason⟩ edgeBps) =
      .ok "scout" := rfl
  simp only [scoreRun, hrows, hids, List.mapM_cons, List.mapM_nil, hid, hgroups, hmetrics, bind,
    Except.bind, pure, Except.pure]
  exact ⟨_, rfl⟩

/-- The window seals, with one scored row. -/
theorem pricedWindow_seals (str : Decoded → String) : ∃ bundle row,
    runLiveWindow ratioFormat String.ofList str pricedInputs = .ok bundle ∧
      bundle.run.scoreRows = [row] ∧ isScored row = true := by
  have hconsistent : pricedSeal.Consistent :=
    ((CompetitionRun.Consistent.start [scout] .live "r" false).calls pricedRun_calls).sealWindow _
  obtain ⟨evidenceHash, hhash⟩ : ∃ evidenceHash, computeEvidenceHash ratioFormat String.ofList
      (pricedSeal.rawEvents.map RunEvent.toDict) = .ok evidenceHash := ⟨_, hconsistent.evidenceHash⟩
  obtain ⟨edge, kelly, reason, edgeBps, hrow⟩ := pricedSeal_scores evidenceHash
  have hresult : ∃ result, result.agentIds = ["scout"] ∧ result.scoreRows =
      [pricedRow evidenceHash ⟨edge, .int 600, kelly, true, reason⟩ edgeBps] ∧
      pricedSeal.result ratioFormat String.ofList
        (some (RunWindow.stamp pricedRun.snapshots pricedInputs.window.toRunWindow)) =
          .ok result := by
    have hdecisions : pricedSeal.decisions = [(scout, flaggedOver, pricedTick)] := rfl
    simp only [CompetitionRun.result, hhash, hdecisions, List.mapM_cons, List.mapM_nil, hrow, bind,
      Except.bind]
    exact ⟨_, rfl, rfl, rfl⟩
  obtain ⟨result, hids, hrows, hresult⟩ := hresult
  obtain ⟨scores, hscores⟩ := pricedRow_scored hids hrows
  have hfinal : pricedRun.finalizeTo ratioFormat pricedInputs.answers String.ofList
      (some pricedInputs.window.toRunWindow) pricedInputs.persist = .ok result := by
    have hseal : pricedRun.sealWindowTo ratioFormat pricedInputs.answers
        (some pricedInputs.window.toRunWindow) = .ok pricedSeal := rfl
    have hopen : pricedRun.finalized = false := rfl
    have hpersist : pricedInputs.persist = .ok () := rfl
    simp only [CompetitionRun.finalizeTo, hopen, hseal, Option.map_some, Except.mapError, hresult,
      hpersist, bind, Except.bind, Bool.false_eq_true, if_false]
    rfl
  refine ⟨⟨result, scores, liveManifestHash ratioFormat String.ofList pricedInputs result scores,
    none, {}⟩, _, ?_, hrows, rfl⟩
  have hrun : runLiveWindow ratioFormat String.ofList str pricedInputs = (do
      let closed ← closeWindow ratioFormat pricedInputs.answers str pricedInputs.window
        (pricedInputs.loop ratioFormat).1 .finished pricedInputs.fetched
      let result ← closed.1.finalizeTo ratioFormat pricedInputs.answers String.ofList
        (some closed.2.2) pricedInputs.persist
      let scores ← scoreRun result
      return ⟨result, scores, liveManifestHash ratioFormat String.ofList pricedInputs result scores,
        none, closed.2.1⟩) := rfl
  rw [hrun, pricedInputs_closes]
  simp only [bind, Except.bind, hfinal, hscores]
  rfl

theorem clv_label_honest_priced : ∃ bundle : LiveRunResult,
    (∃ row ∈ bundle.run.scoreRows, isScored row = true) ∧
      List.Forall₂ (HonestRow ratioFormat (fun _ => "") pricedInputs bundle)
        (pricedInputs.loop ratioFormat).1.run.decisions bundle.run.scoreRows := by
  obtain ⟨bundle, row, hbundle, hrows, hscored⟩ := pricedWindow_seals fun _ => ""
  exact ⟨bundle, ⟨row, hrows ▸ List.mem_singleton_self _, hscored⟩, clv_label_honest hbundle⟩

end Witness

end Veridex.Runtime
