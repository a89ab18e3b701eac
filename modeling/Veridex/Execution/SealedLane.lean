import Veridex.Execution.LaneGates
import Veridex.Runtime.FinalizeRetry
import Veridex.Strategies.ValueSources

/-!
# The lane of a sealed run

A proposal's order has the number of its decision as its client id. The decision is found by the agent
and the tick's sequence number, which counts the ticks of one fixture: where a run is fed two fixtures
and an agent bets on both at one sequence number, both orders are correlated to the later decision.

Results: `sealed_orders_gated` (a sealed run without such a pair), `one_client_order_id_twice` (one).
-/

namespace Veridex.Execution

open Veridex.Py Veridex.Lib Veridex.Runtime Veridex.Scoring Veridex.Policy Veridex.Strategies
open Veridex.Venues Veridex.Law Dialogue

variable {format : Json.FloatFormat PyFloat} {sha256 : List Char → String}
  {policyHash : PolicyEnvelope → String}

/-! ## What a lane's orders satisfy -/

/-- Every order that is submitted has passed every gate, the run's cap is kept, and no two orders
share a client id. -/
structure OrdersGated (format : Json.FloatFormat PyFloat) (lane : Lane) (log : AwaitLog) : Prop where
  each : EachAfter (fun before entry => ∀ order ∈ submittedBy entry, ∃ proposals proposal quote,
    valueProposals format lane.runResult lane.envelope.minEdgeBps = .ok proposals ∧
      proposal ∈ proposals ∧ Gated lane before order proposal quote) log
  total : submitted log = [] ∨ ((submitted log).length : ℤ) ≤ lane.envelope.maxOrdersPerRun
  once : ((submitted log).map (·.clientOrderId)).Nodup

/-- What is kept of an order by the ones after it. -/
theorem OrdersGated.of_each {lane : Lane} {log : AwaitLog}
    (h : EachAfter (fun before entry => ∀ order ∈ submittedBy entry, ∃ proposals proposal quote,
      valueProposals format lane.runResult lane.envelope.minEdgeBps = .ok proposals ∧
        proposal ∈ proposals ∧ Gated lane before order proposal quote) log) :
    OrdersGated format lane log := by
  induction log using List.reverseRecOn with
  | nil => exact ⟨h, .inl rfl, List.nodup_nil⟩
  | append_singleton log entry ih =>
    have hlog := ih (eachAfter_append.mp h).1
    have hentry := h log entry [] rfl
    refine ⟨h, ?_, ?_⟩
    · rw [submitted_snoc]
      cases horder : submittedBy entry with
      | none => simpa using hlog.total
      | some order =>
        obtain ⟨_, _, _, -, -, hgated⟩ := hentry order horder
        have horders := hgated.orders
        refine .inr ?_
        simp only [Option.toList_some, List.length_append, List.length_singleton]
        push_cast
        omega
    · rw [submitted_snoc]
      cases horder : submittedBy entry with
      | none => simpa using hlog.once
      | some order =>
        obtain ⟨_, _, _, -, -, hgated⟩ := hentry order horder
        simp only [Option.toList_some, List.map_append, List.map_cons, List.map_nil]
        refine List.nodup_append.mpr ⟨hlog.once, List.nodup_singleton _, ?_⟩
        intro id hid id' hid' heq
        obtain ⟨earlier, hearlier, rfl⟩ := List.mem_map.mp hid
        rw [List.mem_singleton] at hid'
        exact hgated.clientOrderId earlier hearlier (heq.trans hid')

/-- Each agent has one proposal of a tick sequence number. -/
def OncePerTick (format : Json.FloatFormat PyFloat) (lane : Lane) : Prop :=
  ∀ proposals, valueProposals format lane.runResult lane.envelope.minEdgeBps = .ok proposals →
    (proposals.map fun p => (p.agentId, p.tickSeq)).Nodup

/-- The events of a sealed run have a number each. -/
theorem sealed_numbers_nodup {agents : List Agent} {sourceMode : SourceMode} {runId : String}
    {hasSink : Bool} {calls : List Call} {run run' : CompetitionRun} {window window' : Option RunWindow}
    {result : RunResult}
    (hcalls : (CompetitionRun.start agents sourceMode runId hasSink).calls format calls = .ok run)
    (hseal : run.finalize format sha256 window (.ok ()) = (.ok result, run', window')) :
    (result.runEvents.map (·.sequenceNo)).Nodup := by
  have hconsistent : (run.sealWindow format window).Consistent :=
    ((CompetitionRun.Consistent.start agents sourceMode runId hasSink).calls hcalls).sealWindow window
  rw [result_ok (finalize_ok hseal).1]
  exact List.pairwise_map.mpr (hconsistent.increasing.imp fun hlt => hlt.ne)

/-- **Every order of the lane of a sealed run passed every gate**, in a regular lane whose agents have
one proposal of a tick sequence number each, where no quoted size is `nan`. -/
theorem sealed_orders_gated {agents : List Agent} {sourceMode : SourceMode} {runId : String}
    {hasSink : Bool} {calls : List Call} {run run' : CompetitionRun} {window window' : Option RunWindow}
    {result : RunResult}
    (hcalls : (CompetitionRun.start agents sourceMode runId hasSink).calls format calls = .ok run)
    (hseal : run.finalize format sha256 window (.ok ()) = (.ok result, run', window'))
    {lane : Lane} (hresult : lane.runResult = result) (hregular : Regular lane)
    (honce : OncePerTick format lane) {log : AwaitLog}
    {rest : Shell (List Competition.CompetitionEvent)}
    (hheard : Heard (lane.runExecutionLane format sha256 policyHash) log rest)
    (hsizes : SizesQuoted log) : OrdersGated format lane log := by
  have hnumbers := sealed_numbers_nodup hcalls hseal
  rw [← hresult] at hnumbers
  refine OrdersGated.of_each ?_
  cases hproposals : valueProposals format lane.runResult lane.envelope.minEdgeBps with
  | error e =>
    have hraised : Wp (fun _ _ => False) (fun _ _ => True) []
        (lane.runExecutionLane format sha256 policyHash) := by
      rw [Lane.runExecutionLane, hproposals, ofCore, done_error_bind]
      exact wp_done fun _ _ => trivial
    exact (hraised.heard hheard).1.imp fun _ _ hfalse => hfalse.elim
  | ok proposals =>
    have hdistinct := sources_nodup hnumbers hproposals (honce proposals hproposals)
    refine (lane_orders_gated hproposals hregular hdistinct hheard hsizes).imp ?_
    intro before entry hentry order horder
    obtain ⟨proposal, hmem, quote, hgated⟩ := hentry order horder
    exact ⟨proposals, proposal, quote, rfl, hmem, hgated⟩

section Witness

/-- An agent. -/
def punter : Agent := { agentId := "punter", proofMode := "live" }

/-- A first tick of a fixture, with a probability of one side. -/
def overTick (fixtureId : ℤ) : MarketState where
  fixtureId := fixtureId
  tickSeq := 0
  ts := 100
  phase := 0
  markets := [("OU", [("stable_prob_bps", .obj [("over", .int 6000)])])]
  scores := []
  marketsCanonical := by simp [marketsJson, Json.Canonical, Json.CanonicalFields]
  scoresCanonical := trivial

/-- An action on that side. -/
def flagOver : AgentAction where
  type := .flagValue
  params := [("market_key", .str "OU"), ("side", .str "over")]
  canonical := by
    simp only [Json.CanonicalFields, Json.Canonical]
    decide

/-- The first ticks of some fixtures, fed to the agent, which acts on each. -/
def overCalls (fixtures : List ℤ) : List Call :=
  fixtures.map fun fixtureId => .feed (overTick fixtureId) [(punter, .acted flagOver)]

/-- The run of those calls. -/
def overRun (fixtures : List ℤ) : CompetitionRun :=
  fixtures.foldl (fun run fixtureId => (run.tick ratioFormat (overTick fixtureId)).record ratioFormat
    (overTick fixtureId) (punter, .acted flagOver)) (CompetitionRun.start [punter] .replay "r" false)

/-- Its result. -/
def overResult (fixtures : List ℤ) (evidenceHash : String) : RunResult where
  runId := "r"
  sourceMode := .replay
  agentIds := ["punter"]
  runEvents := (overRun fixtures).rawEvents
  scoreRows := fixtures.map fun fixtureId => plainRow ratioFormat String.ofList evidenceHash
    (punter, flagOver, overTick fixtureId)
    ⟨.int 0, .int 0, .fin 0, true, clvReason ratioFormat (.int 0)⟩ 0
  evidenceHash := evidenceHash
  proofModeMap := [("punter", .str "live")]

theorem overRun_seals {fixtures : List ℤ} (h : fixtures = [7] ∨ fixtures = [7, 8]) :
    ∃ evidenceHash run', (overRun fixtures).finalize ratioFormat String.ofList none (.ok ()) =
      (.ok (overResult fixtures evidenceHash), run', none) := by
  have hcalls : (CompetitionRun.start [punter] .replay "r" false).calls ratioFormat
      (overCalls fixtures) = .ok (overRun fixtures) := by
    rcases h with rfl | rfl <;> rfl
  have hopen : (overRun fixtures).Consistent := (CompetitionRun.Consistent.start _ _ _ _).calls hcalls
  have hresult : ∃ evidenceHash, (overRun fixtures).result ratioFormat String.ofList none =
      .ok (overResult fixtures evidenceHash) := by
    obtain ⟨evidenceHash, hhash⟩ : ∃ evidenceHash, computeEvidenceHash ratioFormat String.ofList
        ((overRun fixtures).rawEvents.map RunEvent.toDict) = .ok evidenceHash :=
      ⟨_, hopen.evidenceHash⟩
    refine ⟨evidenceHash, ?_⟩
    rw [CompetitionRun.result, hhash]
    rcases h with rfl | rfl <;> rfl
  obtain ⟨evidenceHash, hresult⟩ := hresult
  have hfinalized : (overRun fixtures).finalized = false := by
    rcases h with rfl | rfl <;> rfl
  refine ⟨evidenceHash, { overRun fixtures with finalized := true }, ?_⟩
  have hseal : (overRun fixtures).sealWindow ratioFormat none = overRun fixtures := rfl
  simp only [CompetitionRun.finalize, hfinalized, Bool.false_eq_true, if_false, hseal,
    Option.map_none, hresult]

/-- The proposal of a tick, under a decision's number. -/
def overProposal (sourceSequenceNo : ℤ) : Proposal where
  agentId := "punter"
  sourceSequenceNo := sourceSequenceNo
  tickSeq := 0
  marketKey := "OU"
  side := "over"
  recomputedEdgeBps := 0
  kellyFraction := .fin 0
  entryProbBps := 6000

theorem add_overTick (s : SeqIndex) (n fixtureId : ℤ) :
    s.add ratioFormat { tickBody ratioFormat (overTick fixtureId) with sequenceNo := n } =
      .ok { s with currentTickSeq := some 0 } := by
  simp only [SeqIndex.add, tickBody, loadsOrEmpty_payloadText]
  rfl

theorem add_overDecision (index : List ((String × ℤ) × ℤ)) (n : ℤ) :
    SeqIndex.add ratioFormat ⟨some 0, index⟩
        { outcomeBody ratioFormat punter (.acted flagOver) with sequenceNo := n } =
      .ok ⟨some 0, (("punter", 0), n) :: index⟩ := by
  simp only [SeqIndex.add, outcomeBody, agentPayload, loadsOrEmpty_payloadText]
  rfl

theorem addEntryMarket_overTick (index : List (ℤ × Decoded)) (n fixtureId : ℤ) :
    addEntryMarket ratioFormat index
        { tickBody ratioFormat (overTick fixtureId) with sequenceNo := n } =
      .ok ((0, .obj [("OU", .obj [("stable_prob_bps", .obj [("over", .int 6000)])])]) :: index) := by
  simp only [addEntryMarket, tickBody, loadsOrEmpty_payloadText]
  rfl

theorem over_sorted {fixtures : List ℤ} (h : fixtures = [7] ∨ fixtures = [7, 8]) :
    (overRun fixtures).rawEvents.mergeSort (fun a b => a.sequenceNo ≤ b.sequenceNo) =
      (overRun fixtures).rawEvents := by
  have hcalls : (CompetitionRun.start [punter] .replay "r" false).calls ratioFormat
      (overCalls fixtures) = .ok (overRun fixtures) := by
    rcases h with rfl | rfl <;> rfl
  have hincreasing := ((CompetitionRun.Consistent.start _ _ _ _).calls hcalls).increasing
  exact List.mergeSort_of_pairwise (hincreasing.imp fun hlt => by simpa using hlt.le)

/-- What the index of a run holds of the markets of its ticks. -/
def overEntries : List (ℤ × Decoded) :=
  [(0, .obj [("OU", .obj [("stable_prob_bps", .obj [("over", .int 6000)])])])]

theorem over_index_one : decisionSeqIndex ratioFormat (overRun [7]).rawEvents =
    .ok [(("punter", 0), 1)] ∧
      entryMarketIndex ratioFormat (overRun [7]).rawEvents = .ok overEntries := by
  have hevents : (overRun [7]).rawEvents =
      [{ tickBody ratioFormat (overTick 7) with sequenceNo := 0 },
        { outcomeBody ratioFormat punter (.acted flagOver) with sequenceNo := 1 }] := rfl
  refine ⟨?_, ?_⟩
  · rw [decisionSeqIndex, over_sorted (.inl rfl), hevents]
    exact bind_eq_ok.mpr ⟨_, bind_eq_ok.mpr ⟨_, add_overTick _ _ _, bind_eq_ok.mpr
      ⟨_, add_overDecision _ _, rfl⟩⟩, rfl⟩
  · rw [entryMarketIndex, hevents]
    exact bind_eq_ok.mpr ⟨_, addEntryMarket_overTick _ _ _, rfl⟩

theorem over_index_two : decisionSeqIndex ratioFormat (overRun [7, 8]).rawEvents =
    .ok [(("punter", 0), 3), (("punter", 0), 1)] ∧
      entryMarketIndex ratioFormat (overRun [7, 8]).rawEvents =
        .ok (overEntries ++ overEntries) := by
  have hevents : (overRun [7, 8]).rawEvents =
      [{ tickBody ratioFormat (overTick 7) with sequenceNo := 0 },
        { outcomeBody ratioFormat punter (.acted flagOver) with sequenceNo := 1 },
        { tickBody ratioFormat (overTick 8) with sequenceNo := 2 },
        { outcomeBody ratioFormat punter (.acted flagOver) with sequenceNo := 3 }] := rfl
  refine ⟨?_, ?_⟩
  · rw [decisionSeqIndex, over_sorted (.inr rfl), hevents]
    exact bind_eq_ok.mpr ⟨_, bind_eq_ok.mpr ⟨_, add_overTick _ _ _, bind_eq_ok.mpr
      ⟨_, add_overDecision _ _, bind_eq_ok.mpr ⟨_, add_overTick _ _ _, bind_eq_ok.mpr
        ⟨_, add_overDecision _ _, rfl⟩⟩⟩⟩, rfl⟩
  · rw [entryMarketIndex, hevents]
    exact bind_eq_ok.mpr ⟨_, addEntryMarket_overTick _ _ _, bind_eq_ok.mpr
      ⟨_, rfl, bind_eq_ok.mpr ⟨_, addEntryMarket_overTick _ _ _, rfl⟩⟩⟩

/-- The proposals of the run of one fixture. -/
theorem over_proposals_one (evidenceHash : String) :
    valueProposals ratioFormat (overResult [7] evidenceHash) 0 = .ok [overProposal 1] := by
  have hrow : ((overResult [7] evidenceHash).scoreRows.mapM
      (rowProposal [(("punter", 0), 1)] overEntries 0)) = .ok [some (overProposal 1)] := rfl
  refine bind_eq_ok.mpr ⟨_, over_index_one.1, bind_eq_ok.mpr ⟨_, over_index_one.2,
    bind_eq_ok.mpr ⟨_, hrow, congrArg Except.ok ?_⟩⟩⟩
  exact List.mergeSort_of_pairwise (List.pairwise_singleton _ _)

/-- The later decision is found for both fixtures. -/
theorem over_proposals_two (evidenceHash : String) :
    valueProposals ratioFormat (overResult [7, 8] evidenceHash) 0 =
      .ok [overProposal 3, overProposal 3] := by
  have hrow : ((overResult [7, 8] evidenceHash).scoreRows.mapM
      (rowProposal [(("punter", 0), 3), (("punter", 0), 1)] (overEntries ++ overEntries) 0)) =
        .ok [some (overProposal 3), some (overProposal 3)] := rfl
  refine bind_eq_ok.mpr ⟨_, over_index_two.1, bind_eq_ok.mpr ⟨_, over_index_two.2,
    bind_eq_ok.mpr ⟨_, hrow, congrArg Except.ok ?_⟩⟩⟩
  exact List.mergeSort_of_pairwise (List.pairwise_pair.mpr (by decide))

/-- A lane of the run, in live mode. -/
def overLane (runResult : RunResult) : Lane where
  competitionId := "c"
  runResult := runResult
  envelope := {
    maxStake := .fin 5
    maxOrdersPerRun := 10
    maxOrdersPerSession := 10
    maxOrdersPerDay := 10
    venueAllowlist := ["fake"]
    marketAllowlist := ["OU"]
    minEdgeBps := 0
    maxSlippageBps := 100
    maxPrice := .fin 10
    maxQuoteAgeS := 60
    cooldownS := 0
    humanApprovalThreshold := .fin 100 }
  adapter := { venue := some "fake", className := "FakeAdapter" }
  executionMode := "live_guarded"
  baseSeq := 10
  eventTs := 100
  entriesByAgent := fun agentId => some ⟨agentId, true⟩

/-- An answer of a venue that fills every order. -/
def fills : Answer where
  quote := { marketRef := "OU", price := .fin 2, size := .fin 100, ts := 100 }
  ack := ⟨"v", true⟩
  status := { venueOrderId := "v", status := "filled", filledSize := .fin 1, price := .fin 2 }
  receipt := {
    executionId := "r:3"
    venue := "fake"
    marketRef := "OU"
    side := "over"
    requestedSize := .fin 1
    filledSize := .fin 1
    price := .fin 2
    status := .filled
    venueOrderId := some "v"
    mode := "live_guarded" }

/-- The order of the tick's proposal. -/
def overOrder (clientOrderId : String) : Order where
  marketRef := "OU"
  side := "over"
  size := .fin 1
  price := .fin 2
  venue := "fake"
  clientOrderId := clientOrderId

theorem heard_pollOrderTerminal : Heard (pollOrderTerminal "v") [(.getOrderStatus "v", .ok fills)]
    (.done (.ok fills.status)) := by
  have hlower : lower "filled" = "filled" := by
    apply String.toList_injective
    rw [lower, String.toList_map]
    decide
  have hterminal : lower fills.status.status ∈ terminalStatuses := by
    rw [show fills.status.status = "filled" from rfl, hlower]
    decide
  have hstatus : Heard (getOrderStatus "v") [(.getOrderStatus "v", .ok fills)]
      (.done (.ok fills.status)) := (heard_call _ fills).bind .nil
  refine hstatus.bind ?_
  rw [pollFrom, if_pos hterminal]
  exact .nil

theorem roundInt_intCast (n : ℤ) {q : ℚ} (h : q = n) : Ingest.roundInt (.fin q) = .ok n := by
  rw [h, Ingest.roundInt, pyRound_intCast]

/-- A dialogue that submits the tick's order and returns, after some quotes. -/
def Fills (runResult : RunResult) (n orders : ℤ) (quotes : List (String × PyFloat × Quote))
    (d : Shell LaneState) : Prop :=
  ∃ log s', Heard d log (.done (.ok s')) ∧
    log.filterMap submittedBy = [overOrder ((overLane runResult).executionId (overProposal n))] ∧
    log.filterMap quotedBy = quotes ∧ s'.ordersThisRun = orders ∧ s'.guards = none

theorem fills_submit (runResult : RunResult) (s : LaneState) (hguards : s.guards = none) (n : ℤ)
    (record : ExecutionRecord) (hrecord : record.status = .lawApproved) :
    Fills runResult n (s.ordersThisRun + 1) [] (do
      let (s, record) ← (overLane runResult).submit ratioFormat String.ofList s (overProposal n)
        fills.quote record
      appendExecutionRecord record
      return s) := by
  obtain ⟨executionId, competitionId, runId, agentId, sourceSequenceNo, status, policyHash, receipt⟩ :=
    record
  obtain rfl : status = .lawApproved := hrecord
  have hack : Heard (submitOrder (overOrder ((overLane runResult).executionId (overProposal n))))
      [(.submitOrder (overOrder ((overLane runResult).executionId (overProposal n))), .ok fills)]
      (.done (.ok fills.ack)) := (heard_call _ fills).bind .nil
  have hreceipt : Heard (normalizeReceipt ((overLane runResult).executionId (overProposal n))
      (overOrder ((overLane runResult).executionId (overProposal n))) fills.status "live_guarded")
      [(.normalizeReceipt ((overLane runResult).executionId (overProposal n))
        (overOrder ((overLane runResult).executionId (overProposal n))) fills.status "live_guarded",
        .ok fills)] (.done (.ok fills.receipt)) := (heard_call _ fills).bind .nil
  have hplaced := hack.bind (f := fun ack => do
    let status ← pollOrderTerminal ack.venueOrderId
    normalizeReceipt ((overLane runResult).executionId (overProposal n))
      (overOrder ((overLane runResult).executionId (overProposal n))) status "live_guarded")
    (heard_pollOrderTerminal.bind hreceipt)
  have happend : ∀ record, Heard (appendExecutionRecord record)
      [(.appendExecutionRecord record, .ok fills)] (.done (.ok ())) :=
    fun record => (heard_call _ fills).bind .nil
  refine ⟨_, _, Heard.bind (hplaced.bind .nil) ((happend _).bind .nil), rfl, rfl, rfl, ?_⟩
  simp only [guardsAfter, hguards]
  rfl

theorem fills_quote {runResult : RunResult} {n orders : ℤ} {f : Quote → Shell LaneState}
    (h : Fills runResult n orders [] (f fills.quote)) :
    Fills runResult n orders [("OU", .fin 1, fills.quote)] (quoteMarket "OU" (.fin 1) >>= f) := by
  obtain ⟨log, s', hheard, hsubmitted, hquoted, hrest⟩ := h
  have hquote : Heard (quoteMarket "OU" (.fin 1)) [(.quoteMarket "OU" (.fin 1), .ok fills)]
      (.done (.ok fills.quote)) := (heard_call _ fills).bind .nil
  refine ⟨_, s', hquote.bind hheard, hsubmitted, ?_, hrest⟩
  rw [List.filterMap_append, hquoted]
  rfl

theorem over_slippage (n : ℤ) :
    slippageBps (overProposal n).referencePrice fills.quote.price = .ok 0 := rfl

theorem over_edge (n : ℤ) :
    executableEdgeBps (overProposal n).entryProbBps fills.quote.price = .ok 2000 := by
  have hprob : (PyFloat.ofRat ((6000 : ℤ) : ℚ)).div (.fin 10000) = .fin (3 / 5) := by
    rw [PyFloat.ofRat_small (by norm_num), PyFloat.div, PyFloat.ofRat_small (by norm_num)]
    norm_num
  have hedge : ((PyFloat.fin (3 / 5)).mul (.fin 2)).sub (.fin 1) = .fin (1 / 5) := by
    have hsum : (PyFloat.fin (3 / 5 * 2)).add (.fin (-1)) = PyFloat.ofRat (3 / 5 * 2 + -1) := rfl
    rw [PyFloat.mul_fin_fin]
    refine hsum.trans ?_
    rw [PyFloat.ofRat_small (by norm_num)]
    norm_num
  rw [executableEdgeBps, if_neg (by decide)]
  dsimp only [overProposal, fills]
  rw [hprob, hedge, PyFloat.mul_fin_fin]
  exact roundInt_intCast 2000 (by norm_num)

theorem over_gap (n : ℤ) :
    mispricingGapBps (overProposal n).entryProbBps fills.quote.price = .ok 1000 := by
  have himplied : venueImpliedProbBps (.fin 2) = .ok 5000 := by
    rw [venueImpliedProbBps, if_neg (by decide), PyFloat.div, PyFloat.ofRat_small (by norm_num)]
    exact roundInt_intCast 5000 (by norm_num)
  exact bind_eq_ok.mpr ⟨_, himplied, rfl⟩

theorem fills_step (runResult : RunResult) (s : LaneState) (horders : s.ordersThisRun < 10)
    (hguards : s.guards = none) (n : ℤ) :
    Fills runResult n (s.ordersThisRun + 1) [("OU", .fin 1, fills.quote)]
      ((overLane runResult).step ratioFormat String.ofList (fun _ => "") s (overProposal n)) := by
  have hpass : PreQuotePass ((overLane runResult).preQuoteContext s.guards s.ordersThisRun
      (isEligible ((overLane runResult).entriesByAgent (overProposal n).agentId)) (overProposal n))
      (overLane runResult).envelope := by
    rw [hguards]
    have hcap : (0 : ℤ) < 10 := by norm_num
    exact ⟨rfl, rfl, le_rfl, rfl, fun _ henabled => (nomatch henabled), List.mem_singleton.mpr rfl,
      List.mem_singleton.mpr rfl, horders, hcap, hcap, rfl, rfl, fun _ hnone => (nomatch hnone), rfl⟩
  have hpre := (@preQuote_passes (fun _ => "") _ _).mpr hpass
  have hslippage := over_slippage n
  have hedge := over_edge n
  have hgap := over_gap n
  have hpost : (evaluatePostQuote (fun _ => "") ((overLane runResult).postQuoteContext
      (overProposal n) fills.quote 0 2000) (overLane runResult).envelope).decision = .approved :=
    postQuote_approved.mpr ⟨⟨(by norm_num : (0 : ℤ) ≤ 60), rfl, (by norm_num : (0 : ℤ) ≤ 100),
      (by norm_num : (0 : ℤ) ≤ 2000), rfl, rfl⟩, rfl⟩
  have hround : (overLane runResult).step ratioFormat String.ofList (fun _ => "") s
      (overProposal n) = (overLane runResult).quoted ratioFormat String.ofList (fun _ => "") s
        (overProposal n) { (overLane runResult).record (overProposal n) "" with
          status := .lawApproved } := by
    have hadvance : ∀ hash, ofCore (((overLane runResult).record (overProposal n) hash).advance
        .lawApproved) = .done (.ok { (overLane runResult).record (overProposal n) hash with
          status := .lawApproved }) := fun hash => rfl
    rw [Lane.step]
    dsimp only
    rw [hadvance, done_ok_bind, if_neg hpre]
    rfl
  have hemit : ∀ s event, (overLane runResult).emit s event =
      .done (.ok { s with events := s.events ++ [event s.seq], seq := s.seq + 1 }) :=
    fun _ _ => rfl
  have hlive : (overLane runResult).executionMode ≠ "paper" ∧
      isEligible ((overLane runResult).entriesByAgent (overProposal n).agentId) = true :=
    ⟨(by decide : ¬ ("live_guarded" = "paper")), rfl⟩
  rw [hround]
  refine fills_quote ?_
  rw [hslippage, hedge, hgap, ofCore, done_ok_bind, ofCore, done_ok_bind, ofCore, done_ok_bind]
  dsimp only
  rw [hemit, done_ok_bind, Lane.settle]
  rw [if_neg (by rw [hpost]; decide), if_neg (by rw [hpost]; decide), if_pos hlive]
  refine fills_submit runResult _ ?_ n _ ?_
  · exact hguards
  · rfl

/-- The orders of the lane of a run of one fixture, and of two. -/
theorem heard_over {fixtures : List ℤ} {n : ℤ} (evidenceHash : String)
    (h : valueProposals ratioFormat (overResult fixtures evidenceHash) 0 =
      .ok (fixtures.map fun _ => overProposal n)) (hlength : fixtures.length ≤ 10) : ∃ log rest,
    Heard ((overLane (overResult fixtures evidenceHash)).runExecutionLane ratioFormat String.ofList
      fun _ => "") log rest ∧
      submitted log = fixtures.map (fun _ => overOrder ((overLane
        (overResult fixtures evidenceHash)).executionId (overProposal n))) ∧
      log.filterMap quotedBy = fixtures.map fun _ => ("OU", .fin 1, fills.quote) := by
  have hrounds : ∀ (rounds : List ℤ) (s : LaneState), s.guards = none →
      s.ordersThisRun + rounds.length ≤ 10 → ∃ log s',
      Heard ((rounds.map fun _ => overProposal n).foldlM
        ((overLane (overResult fixtures evidenceHash)).step ratioFormat String.ofList fun _ => "") s)
        log (.done (.ok s')) ∧
        submitted log = rounds.map (fun _ => overOrder ((overLane
          (overResult fixtures evidenceHash)).executionId (overProposal n))) ∧
        log.filterMap quotedBy = rounds.map fun _ => ("OU", .fin 1, fills.quote) := by
    intro rounds
    induction rounds with
    | nil => exact fun s _ _ => ⟨[], s, .nil, rfl, rfl⟩
    | cons round rounds ih =>
      intro s hguards hcap
      rw [List.length_cons] at hcap
      push_cast at hcap
      obtain ⟨log, s₁, hheard, hsubmitted, hquoted, horders, hguards₁⟩ := fills_step
        (overResult fixtures evidenceHash) s (by omega) hguards n
      obtain ⟨log', s', hheard', hsubmitted', hquoted'⟩ := ih s₁ hguards₁ (by omega)
      refine ⟨log ++ log', s', hheard.bind hheard', ?_, ?_⟩
      · rw [submitted, List.filterMap_append, hsubmitted, ← submitted, hsubmitted']
        rfl
      · rw [List.filterMap_append, hquoted, hquoted']
        rfl
  obtain ⟨log, s', hheard, hsubmitted, hquoted⟩ := hrounds fixtures
    (overLane (overResult fixtures evidenceHash)).start rfl (by simpa [Lane.start] using hlength)
  refine ⟨log, .done (.ok s'.events), ?_, hsubmitted, hquoted⟩
  have hlane : valueProposals ratioFormat (overLane (overResult fixtures evidenceHash)).runResult
      (overLane (overResult fixtures evidenceHash)).envelope.minEdgeBps =
        .ok (fixtures.map fun _ => overProposal n) := h
  have hbound := hheard.bind (f := fun s => (pure s.events : Shell _)) .nil
  rw [List.append_nil] at hbound
  rw [Lane.runExecutionLane, hlane, ofCore, done_ok_bind]
  exact hbound

theorem sealed_orders_gated_one : ∃ evidenceHash log rest,
    Heard ((overLane (overResult [7] evidenceHash)).runExecutionLane ratioFormat String.ofList
      fun _ => "") log rest ∧ (submitted log).length = 1 ∧
      OrdersGated ratioFormat (overLane (overResult [7] evidenceHash)) log := by
  obtain ⟨evidenceHash, run', hseal⟩ := overRun_seals (.inl rfl)
  have hproposals := over_proposals_one evidenceHash
  obtain ⟨log, rest, hheard, hsubmitted, hquoted⟩ := @heard_over [7] 1 evidenceHash
    hproposals (by decide)
  have hcalls : (CompetitionRun.start [punter] .replay "r" false).calls ratioFormat
      (overCalls [7]) = .ok (overRun [7]) := rfl
  have hregular : Regular (overLane (overResult [7] evidenceHash)) :=
    ⟨by simp [overLane], nofun, nofun, nofun, ⟨1000, by norm_num, rfl⟩⟩
  have honce : OncePerTick ratioFormat (overLane (overResult [7] evidenceHash)) := by
    intro proposals h
    obtain rfl := Except.ok.inj (hproposals.symm.trans h)
    exact List.nodup_singleton _
  have hsizes : SizesQuoted log := by
    intro quoted hmem
    rw [hquoted] at hmem
    obtain rfl := List.mem_singleton.mp hmem
    exact nofun
  exact ⟨evidenceHash, log, rest, hheard, by rw [hsubmitted]; rfl,
    sealed_orders_gated hcalls hseal rfl hregular honce hheard hsizes⟩

/-- Two fixtures' first ticks, both bet on, give two orders one client id. -/
theorem one_client_order_id_twice :
    ¬ ∀ (format : Json.FloatFormat PyFloat) (sha256 : List Char → String)
      (policyHash : PolicyEnvelope → String) (agents : List Agent) (sourceMode : SourceMode)
      (runId : String) (hasSink : Bool) (calls : List Call) (run run' : CompetitionRun)
      (window window' : Option RunWindow) (result : RunResult) (lane : Lane) (log : AwaitLog)
      (rest : Shell (List Competition.CompetitionEvent)),
      (CompetitionRun.start agents sourceMode runId hasSink).calls format calls = .ok run →
      run.finalize format sha256 window (.ok ()) = (.ok result, run', window') →
      lane.runResult = result →
      Heard (lane.runExecutionLane format sha256 policyHash) log rest → OrdersGated format lane log := by
  intro hclaim
  obtain ⟨evidenceHash, run', hseal⟩ := overRun_seals (.inr rfl)
  obtain ⟨log, rest, hheard, hsubmitted, -⟩ := @heard_over [7, 8] 3 evidenceHash
    (over_proposals_two evidenceHash) (by decide)
  have hcalls : (CompetitionRun.start [punter] .replay "r" false).calls ratioFormat
      (overCalls [7, 8]) = .ok (overRun [7, 8]) := rfl
  have hgated := hclaim _ _ _ _ _ _ _ _ _ _ _ _ _ _ _ _ hcalls hseal rfl hheard
  have honce := hgated.once
  rw [hsubmitted] at honce
  simp at honce

end Witness

end Veridex.Execution
