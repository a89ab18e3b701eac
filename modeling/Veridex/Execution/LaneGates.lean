import Veridex.Execution.AwaitLog

/-!
# What gates an order of the lane

Of a lane's log we read the orders submitted (`submitted`), the last quote (`lastQuote`) and the guards
after the receipts (`guardsAt`). `Gated` says what an order has passed when it is submitted.

* `Regular`: no limit is `nan`, and the mode is one of three.
* `lane_orders_gated`: every order of a regular lane is gated, whatever the adapter answers, where the
  proposals have one source number each and no quoted size is `nan`.
-/

namespace Veridex.Execution

open Veridex.Py Veridex.Lib Veridex.Runtime Veridex.Scoring Veridex.Policy Veridex.Strategies
open Veridex.Venues Dialogue

/-! ## Reading a log -/

/-- The order an entry submits. -/
def submittedBy : Await × Except PyExc Answer → Option Order
  | (.submitOrder order, _) => some order
  | _ => none

/-- The orders submitted. -/
def submitted (log : AwaitLog) : List Order := log.filterMap submittedBy

/-- The quote an entry gives, with the market and the size it was asked for. -/
def quotedBy : Await × Except PyExc Answer → Option (String × PyFloat × Quote)
  | (.quoteMarket marketRef forSize, .ok answer) => some (marketRef, forSize, answer.quote)
  | _ => none

/-- The last quote. -/
def lastQuote (log : AwaitLog) : Option (String × PyFloat × Quote) := (log.filterMap quotedBy).getLast?

/-- Every size quoted is a number. -/
def SizesQuoted (log : AwaitLog) : Prop := ∀ quoted ∈ log.filterMap quotedBy, quoted.2.2.size ≠ .nan

/-- The guards after an entry. -/
def Lane.guardsBy (lane : Lane) (guards : Option BreakerCell) :
    Await × Except PyExc Answer → Option BreakerCell
  | (.normalizeReceipt .., .ok answer) => guardsAfter lane.executionMode
      lane.envelope.circuitBreakerThreshold lane.clock answer.receipt.status guards
  | _ => guards

/-- The guards after the receipts of a log. -/
def Lane.guardsAt (lane : Lane) (log : AwaitLog) : Option BreakerCell :=
  log.foldl lane.guardsBy lane.startGuards

@[simp] theorem submitted_snoc (log : AwaitLog) (entry : Await × Except PyExc Answer) :
    submitted (log ++ [entry]) = submitted log ++ (submittedBy entry).toList := by
  rw [submitted, submitted, List.filterMap_append]
  cases h : submittedBy entry <;> simp [h]

@[simp] theorem guardsAt_snoc (lane : Lane) (log : AwaitLog) (entry : Await × Except PyExc Answer) :
    lane.guardsAt (log ++ [entry]) = lane.guardsBy (lane.guardsAt log) entry := by
  rw [Lane.guardsAt, List.foldl_append]
  rfl

/-- A log that went on with nothing a lane keeps account of. -/
structure Same (lane : Lane) (log log' : AwaitLog) : Prop where
  submitted : submitted log' = submitted log
  quoted : log'.filterMap quotedBy = log.filterMap quotedBy
  guards : lane.guardsAt log' = lane.guardsAt log

theorem Same.refl (lane : Lane) (log : AwaitLog) : Same lane log log := ⟨rfl, rfl, rfl⟩

theorem Same.trans {lane : Lane} {log log' log'' : AwaitLog} (h : Same lane log log')
    (h' : Same lane log' log'') : Same lane log log'' :=
  ⟨h'.submitted.trans h.submitted, h'.quoted.trans h.quoted, h'.guards.trans h.guards⟩

theorem Idle.same (lane : Lane) {log log' : AwaitLog} (h : Idle log log') : Same lane log log' := by
  refine h.keeps (Same.refl lane log) fun before question answer hquestion hsame => hsame.trans ?_
  cases question with
  | getOrderStatus _ | sleep | broadcast _ | appendExecutionRecord _ =>
    exact ⟨by simp [submittedBy], by simp [quotedBy], by simp [Lane.guardsBy]⟩
  | quoteMarket _ _ | submitOrder _ | normalizeReceipt _ _ _ _ => exact hquestion.elim

/-- An open breaker stays open as the log goes on. -/
theorem guardsAt_open (lane : Lane) {before log : AwaitLog} (hbefore : before <+: log)
    (h : (gateBreaker (lane.guardsAt before)).state = .open) :
    (gateBreaker (lane.guardsAt log)).state = .open := by
  obtain ⟨after, rfl⟩ := hbefore
  induction after using List.reverseRecOn with
  | nil => rwa [List.append_nil]
  | append_singleton after entry ih =>
    rw [← List.append_assoc, guardsAt_snoc]
    rcases entry with ⟨question, answer⟩
    cases question with
    | normalizeReceipt executionId order status mode =>
      cases answer with
      | error e => exact ih
      | ok answer =>
        cases hguards : lane.guardsAt (before ++ after) with
        | none => rw [hguards] at ih; exact absurd ih (by decide)
        | some cell =>
          rw [hguards] at ih
          simp only [Lane.guardsBy, guardsAfter]
          split_ifs with hlive
          · simp only [Option.map_some, gateBreaker, BreakerCell.executed]
            split_ifs
            · exact CircuitBreaker.recordFailure_open ih _ _
            · exact CircuitBreaker.recordSuccess_open ih
          · exact ih
    | quoteMarket _ _ | submitOrder _ | getOrderStatus _ | sleep | broadcast _
    | appendExecutionRecord _ => exact ih

/-! ## Numbers -/

theorem pyMin_ne_nan {a b : PyFloat} (ha : a ≠ .nan) (hb : b ≠ .nan) : pyMin a b ≠ .nan := by
  unfold pyMin
  split_ifs
  · exact hb
  · exact ha

theorem mul_ne_nan {q : ℚ} (hq : q ≠ 0) {a : PyFloat} (ha : a ≠ .nan) :
    (PyFloat.fin q).mul a ≠ .nan := by
  rcases lt_or_gt_of_ne hq with h | h
  · cases a <;> simp_all [PyFloat.mul, PyFloat.sign]
  · cases a <;> simp_all [PyFloat.mul, PyFloat.sign, not_lt.mpr h.le]

theorem mul_swap (a b : PyFloat) : a.mul b = b.mul a := by
  cases a <;> cases b <;> simp only [PyFloat.mul, mul_comm]

/-- **A stake is a number**, of a bankroll and a cap that are. -/
theorem sizeStake_ne_nan {kelly maxStake : PyFloat} {bankroll : ℚ} (hbankroll : bankroll ≠ 0)
    (hmax : maxStake ≠ .nan) : sizeStake kelly (.fin bankroll) maxStake ≠ .nan := by
  unfold sizeStake
  split_ifs with h
  · exact pyMin_ne_nan (by simp) hmax
  · refine pyMin_ne_nan ?_ hmax
    have hkelly : kelly ≠ .nan := by
      rintro rfl
      simp at h
    rw [mul_swap]
    exact mul_ne_nan hbankroll (mul_ne_nan (by norm_num) hkelly)

theorem le_of_lt_eq_false {a b : PyFloat} (ha : a ≠ .nan) (hb : b ≠ .nan) (h : a.lt b = false) :
    b.le a = true := by
  cases a <;> cases b <;> simp_all [PyFloat.lt, PyFloat.le]

theorem lt_of_le_eq_false {a b : PyFloat} (ha : a ≠ .nan) (hb : b ≠ .nan) (h : a.le b = false) :
    b.lt a = true := by
  cases a <;> cases b <;> simp_all [PyFloat.lt, PyFloat.le]

/-- Where an edge is computed, the price is a number. -/
theorem price_ne_nan {probBps edge : ℤ} {price : PyFloat}
    (h : executableEdgeBps probBps price = .ok edge) : price ≠ .nan := by
  rintro rfl
  have hnan : ∀ p : PyFloat, ((p.mul .nan).sub (.fin 1)).mul (.fin 10000) = .nan := by
    intro p
    cases p <;> rfl
  rw [executableEdgeBps, if_neg (by decide)] at h
  simp only [hnan, Ingest.roundInt] at h
  exact nomatch h

/-! ## What an order has passed -/

/-- What an order of a proposal has passed when it is submitted after a log. -/
structure Gated (lane : Lane) (log : AwaitLog) (order : Order) (proposal : Proposal)
    (quote : Quote) : Prop where
  mode : lane.executionMode = "live_guarded"
  roster : ∃ entry, lane.entriesByAgent proposal.agentId = some entry ∧
    entry.executionEligibility = true
  killSwitch : lane.envelope.killSwitch = false
  breaker : (gateBreaker (lane.guardsAt log)).allows = true
  neverOpen : ∀ before, before <+: log → (gateBreaker (lane.guardsAt before)).state ≠ .open
  sealedEdge : lane.envelope.minEdgeBps ≤ proposal.recomputedEdgeBps
  executableEdge : ∃ edge, executableEdgeBps proposal.entryProbBps quote.price = .ok edge ∧
    lane.envelope.minEdgeBps ≤ edge
  quoted : lastQuote log = some (order.marketRef, order.size, quote)
  maxStake : order.size.le lane.envelope.maxStake = true
  liveCap : (PyFloat.fin 0).lt lane.envelope.maxStakeLiveGuarded = true →
    order.size.le lane.envelope.maxStakeLiveGuarded = true
  depth : order.size.le quote.size = true
  approval : order.size.lt lane.envelope.humanApprovalThreshold = true
  price : order.price = quote.price
  slippage : ∃ slippage, slippageBps proposal.referencePrice quote.price = .ok slippage ∧
    slippage ≤ lane.envelope.maxSlippageBps
  maxPrice : order.price.le lane.envelope.maxPrice = true
  venue : order.venue ∈ lane.envelope.venueAllowlist
  market : order.marketRef ∈ lane.envelope.marketAllowlist
  orders : ((submitted log).length : ℤ) < lane.envelope.maxOrdersPerRun
  clientOrderId : ∀ earlier ∈ submitted log, earlier.clientOrderId ≠ order.clientOrderId

/-- A lane whose limits are numbers, and whose mode is known. -/
structure Regular (lane : Lane) : Prop where
  mode : lane.executionMode ∈ ["paper", "dry_run", "live_guarded"]
  maxStake : lane.envelope.maxStake ≠ .nan
  maxPrice : lane.envelope.maxPrice ≠ .nan
  approval : lane.envelope.humanApprovalThreshold ≠ .nan
  bankroll : ∃ q : ℚ, q ≠ 0 ∧ lane.bankroll = .fin q

/-- A submitted order is gated, of one of some proposals, where the sizes quoted are numbers. -/
def Safely (lane : Lane) (proposals : List Proposal) (log : AwaitLog) : Await → Prop
  | .submitOrder order => SizesQuoted log → ∃ proposal ∈ proposals, ∃ quote,
      Gated lane log order proposal quote
  | _ => True

/-- What the rounds of a lane keep, with the proposals that are left. -/
structure Account (lane : Lane) (log : AwaitLog) (s : LaneState) (rest : List Proposal) : Prop where
  orders : ((submitted log).length : ℤ) ≤ s.ordersThisRun
  guards : s.guards = lane.guardsAt log
  fresh : ∀ earlier ∈ submitted log, ∀ proposal ∈ rest,
    earlier.clientOrderId ≠ lane.executionId proposal

theorem Account.same {lane : Lane} {log log' : AwaitLog} {s s' : LaneState} {rest : List Proposal}
    (h : Account lane log s rest) (hsame : Same lane log log') (horders : s'.ordersThisRun = s.ordersThisRun)
    (hguards : s'.guards = s.guards) : Account lane log' s' rest := by
  refine ⟨?_, ?_, ?_⟩
  · rw [horders, hsame.submitted]
    exact h.orders
  · rw [hguards, h.guards, hsame.guards]
  · rw [hsame.submitted]
    exact h.fresh

theorem Account.tail {lane : Lane} {log : AwaitLog} {s : LaneState} {proposal : Proposal}
    {rest : List Proposal} (h : Account lane log s (proposal :: rest)) : Account lane log s rest :=
  ⟨h.orders, h.guards, fun earlier hearlier p hp => h.fresh earlier hearlier p (List.mem_cons_of_mem _ hp)⟩

/-! ## The rounds -/

section Rounds

variable {format : Json.FloatFormat PyFloat} {sha256 : List Char → String}
  {policyHash : PolicyEnvelope → String} {lane : Lane} {proposals : List Proposal} {log : AwaitLog}

theorem safely_quiet (log : AwaitLog) (question : Await) (h : question.IsQuiet) :
    Safely lane proposals log question := by
  cases question with
  | submitOrder _ => exact h.elim
  | quoteMarket _ _ | getOrderStatus _ | sleep | normalizeReceipt _ _ _ _ | broadcast _
  | appendExecutionRecord _ => exact trivial

/-- What placing an order leaves: the order is submitted unless the run is dry, and the receipt has
moved the guards. -/
theorem wp_placeOrder {executionId : String} {order : Order}
    (hsafe : lane.executionMode ≠ "dry_run" → Safely lane proposals log (.submitOrder order)) :
    Wp (Safely lane proposals) (fun log' receipt =>
      (submitted log' = submitted log ∨ submitted log' = submitted log ++ [order]) ∧
        lane.guardsAt log' = guardsAfter lane.executionMode
          lane.envelope.circuitBreakerThreshold lane.clock receipt.status (lane.guardsAt log)) log
      (placeOrder lane.executionMode executionId order) := by
  unfold placeOrder
  split_ifs with hdry
  · refine wp_bind (wp_call trivial fun answer => wp_return ⟨.inl ?_, ?_⟩)
    · simp [submittedBy]
    · simp [Lane.guardsBy]
  · refine wp_bind (wp_bind (wp_call (hsafe hdry) fun answer => wp_return ?_))
    refine wp_bind ((wp_pollOrderTerminal safely_quiet answer.ack.venueOrderId _).mono ?_)
    intro log₁ status hidle
    have hpolled := hidle.same lane
    refine wp_bind (wp_call trivial fun answer' => wp_return ⟨.inr ?_, ?_⟩)
    · simp [submittedBy, hpolled.submitted]
    · simp [Lane.guardsBy, hpolled.guards]

theorem executionId_injective {p p' : Proposal} (h : lane.executionId p = lane.executionId p') :
    p.sourceSequenceNo = p'.sourceSequenceNo := by
  rw [Lane.executionId, Lane.executionId, String.append_right_inj] at h
  exact Json.intText_injective (String.ofList_injective h)

/-- What a proposal has passed where its order is due. -/
structure Due (lane : Lane) (log : AwaitLog) (proposal : Proposal) (quote : Quote) : Prop where
  roster : isEligible (lane.entriesByAgent proposal.agentId) = true
  quoted : lastQuote log = some (proposal.marketKey, lane.stake proposal, quote)
  pre : ∃ orders : ℤ, (submitted log).length ≤ orders ∧ PreQuotePass (lane.preQuoteContext
    (lane.guardsAt log) orders (isEligible (lane.entriesByAgent proposal.agentId)) proposal)
      lane.envelope
  post : ∃ slippage edge, slippageBps proposal.referencePrice quote.price = .ok slippage ∧
    executableEdgeBps proposal.entryProbBps quote.price = .ok edge ∧
    PostQuotePass (lane.postQuoteContext proposal quote slippage edge) lane.envelope
  approval : lane.envelope.humanApprovalThreshold.le (lane.stake proposal) = false
  fresh : ∀ earlier ∈ submitted log, earlier.clientOrderId ≠ lane.executionId proposal

theorem lastQuote_mem {marketRef : String} {forSize : PyFloat} {quote : Quote}
    (h : lastQuote log = some (marketRef, forSize, quote)) :
    (marketRef, forSize, quote) ∈ log.filterMap quotedBy := List.mem_of_getLast? h

/-- **A due order** is gated, in a regular lane. -/
theorem Due.gated {proposal : Proposal} {quote : Quote} (h : Due lane log proposal quote)
    (hregular : Regular lane) (hpaper : lane.executionMode ≠ "paper")
    (hdry : lane.executionMode ≠ "dry_run") (hsizes : SizesQuoted log) :
    Gated lane log (lane.order proposal quote (lane.executionId proposal)) proposal quote := by
  have hmode : lane.executionMode = "live_guarded" := by
    have hmem := hregular.mode
    simpa [hpaper, hdry] using hmem
  obtain ⟨orders, horders, hpre⟩ := h.pre
  obtain ⟨slippage, edge, hslippage, hedge, hpost⟩ := h.post
  obtain ⟨bankroll, hbankroll, hfin⟩ := hregular.bankroll
  have hstake : lane.stake proposal ≠ .nan := by
    rw [LaneInputs.stake, hfin]
    exact sizeStake_ne_nan hbankroll hregular.maxStake
  have hsize : quote.size ≠ .nan := hsizes _ (lastQuote_mem h.quoted)
  have hroster : ∃ entry, lane.entriesByAgent proposal.agentId = some entry ∧
      entry.executionEligibility = true := by
    have hentry := h.roster
    cases hfound : lane.entriesByAgent proposal.agentId with
    | none => simp [isEligible, hfound] at hentry
    | some entry => exact ⟨entry, rfl, by simpa [isEligible, hfound] using hentry⟩
  refine {
    mode := hmode
    roster := hroster
    killSwitch := hpre.killSwitch
    breaker := hpre.breaker
    neverOpen := ?_
    sealedEdge := hpre.edge
    executableEdge := ⟨edge, hedge, hpost.edge⟩
    quoted := h.quoted
    maxStake := le_of_lt_eq_false hregular.maxStake hstake hpre.stake
    liveCap := ?_
    depth := le_of_lt_eq_false hsize hstake hpost.depth
    approval := lt_of_le_eq_false hregular.approval hstake h.approval
    price := rfl
    slippage := ⟨slippage, hslippage, hpost.slippage⟩
    maxPrice := le_of_lt_eq_false hregular.maxPrice (price_ne_nan hedge) hpost.price
    venue := hpre.venue
    market := hpre.market
    orders := horders.trans_lt hpre.runCap
    clientOrderId := h.fresh }
  · intro before hbefore hopen
    have hallows := hpre.breaker
    rw [LaneInputs.preQuoteContext, CircuitBreaker.allows_open (guardsAt_open lane hbefore hopen)]
      at hallows
    exact Bool.false_ne_true hallows
  · intro henabled
    have hlive := hpre.live (by simp [LaneInputs.preQuoteContext, hmode]) henabled
    exact le_of_lt_eq_false (PyFloat.ne_nan_of_lt henabled) hstake hlive

theorem wp_submit {s : LaneState} {proposal : Proposal} {rest : List Proposal} {quote : Quote}
    {record : ExecutionRecord} (hregular : Regular lane) (hmem : proposal ∈ proposals)
    (hlater : ∀ p ∈ rest, p.sourceSequenceNo ≠ proposal.sourceSequenceNo)
    (hpaper : lane.executionMode ≠ "paper") (haccount : Account lane log s (proposal :: rest))
    (hdue : Due lane log proposal quote) :
    Wp (Safely lane proposals) (fun log' result => Account lane log' result.1 rest) log
      (lane.submit format sha256 s proposal quote record) := by
  refine wp_bind (wp_done fun record _ => ?_)
  refine wp_bind ((wp_placeOrder ?_).mono ?_)
  · intro hdry hsizes
    exact ⟨proposal, hmem, quote, hdue.gated hregular hpaper hdry hsizes⟩
  · rintro log₁ receipt ⟨hsubmitted, hguards⟩
    refine wp_bind (wp_done fun record _ => ?_)
    have hcount : ((submitted log₁).length : ℤ) ≤ s.ordersThisRun + 1 := by
      have horders := haccount.orders
      rcases hsubmitted with h | h
      · rw [h]
        omega
      · rw [h, List.length_append, List.length_singleton]
        push_cast
        omega
    have hfresh : ∀ earlier ∈ submitted log₁, ∀ p ∈ rest,
        earlier.clientOrderId ≠ lane.executionId p := by
      intro earlier hearlier p hp
      have hold := fun h => haccount.tail.fresh earlier h p hp
      rcases hsubmitted with h | h
      · exact hold (h ▸ hearlier)
      · rw [h] at hearlier
        rcases List.mem_append.mp hearlier with hearlier | hearlier
        · exact hold hearlier
        · rw [List.mem_singleton.mp hearlier]
          exact fun heq => hlater p hp (executionId_injective heq).symm
    have hmoved : Account lane log₁ { s with
        ordersThisRun := s.ordersThisRun + 1
        guards := guardsAfter lane.executionMode lane.envelope.circuitBreakerThreshold lane.clock
          receipt.status s.guards } rest :=
      ⟨hcount, by rw [hguards, haccount.guards], hfresh⟩
    refine wp_bind ((wp_emit safely_quiet _).mono ?_)
    rintro log₂ s₂ ⟨hidle₂, horders₂, hguards₂⟩
    refine wp_bind ((wp_emit safely_quiet _).mono ?_)
    rintro log₃ s₃ ⟨hidle₃, horders₃, hguards₃⟩
    exact wp_return ((hmoved.same (hidle₂.same lane) horders₂ hguards₂).same (hidle₃.same lane)
      horders₃ hguards₃)

theorem wp_settle {s : LaneState} {proposal : Proposal} {rest : List Proposal} {quote : Quote}
    {post : PolicyResult} {record : ExecutionRecord} (hregular : Regular lane)
    (hmem : proposal ∈ proposals)
    (hlater : ∀ p ∈ rest, p.sourceSequenceNo ≠ proposal.sourceSequenceNo)
    (haccount : Account lane log s (proposal :: rest))
    (hdue : post.decision = .approved → isEligible (lane.entriesByAgent proposal.agentId) = true →
      Due lane log proposal quote) :
    Wp (Safely lane proposals) (fun log' result => Account lane log' result.1 rest) log
      (lane.settle format sha256 s proposal quote post record) := by
  unfold Lane.settle
  simp only
  split_ifs with hdenied hhuman hsubmit
  · exact wp_bind (wp_done fun _ _ => wp_return haccount.tail)
  · exact wp_bind (wp_done fun _ _ => wp_return haccount.tail)
  · have happroved : post.decision = .approved := by
      cases hdecision : post.decision with
      | approved => rfl
      | denied => exact absurd hdecision hdenied
      | requiresHuman => exact absurd hdecision hhuman
    exact wp_submit hregular hmem hlater hsubmit.1 haccount (hdue happroved hsubmit.2)
  · exact wp_return haccount.tail

theorem wp_quoted {s : LaneState} {proposal : Proposal} {rest : List Proposal}
    {record : ExecutionRecord} (hregular : Regular lane) (hmem : proposal ∈ proposals)
    (hlater : ∀ p ∈ rest, p.sourceSequenceNo ≠ proposal.sourceSequenceNo)
    (haccount : Account lane log s (proposal :: rest))
    (hpre : PreQuotePass (lane.preQuoteContext s.guards s.ordersThisRun
      (isEligible (lane.entriesByAgent proposal.agentId)) proposal) lane.envelope) :
    Wp (Safely lane proposals) (fun log' s' => Account lane log' s' rest) log
      (lane.quoted format sha256 policyHash s proposal record) := by
  refine wp_bind (wp_bind (wp_call trivial fun answer => wp_return ?_))
  have hquoted : lastQuote (log ++ [(.quoteMarket proposal.marketKey (lane.stake proposal),
      .ok answer)]) = some (proposal.marketKey, lane.stake proposal, answer.quote) := by
    simp [lastQuote, quotedBy]
  have hsubmitted : submitted (log ++ [(.quoteMarket proposal.marketKey (lane.stake proposal),
      .ok answer)]) = submitted log := by
    simp [submittedBy]
  have hguards : lane.guardsAt (log ++ [(.quoteMarket proposal.marketKey (lane.stake proposal),
      .ok answer)]) = lane.guardsAt log := by
    simp [Lane.guardsBy]
  have hasked : Account lane (log ++ [(.quoteMarket proposal.marketKey (lane.stake proposal),
      .ok answer)]) s (proposal :: rest) := by
    refine ⟨?_, ?_, ?_⟩
    · rw [hsubmitted]
      exact haccount.orders
    · rw [hguards]
      exact haccount.guards
    · rw [hsubmitted]
      exact haccount.fresh
  refine wp_bind (wp_done fun slippage hslippage => ?_)
  refine wp_bind (wp_done fun edge hedge => ?_)
  refine wp_bind (wp_done fun gap _ => ?_)
  refine wp_bind ((wp_emit safely_quiet _).mono ?_)
  rintro log₁ s₁ ⟨hidle, horders₁, hguards₁⟩
  have hsame := hidle.same lane
  have haccount₁ := hasked.same hsame horders₁ hguards₁
  refine wp_bind ((wp_settle hregular hmem hlater haccount₁ ?_).mono ?_)
  · intro happroved heligible
    obtain ⟨hpost, happroval⟩ := postQuote_approved.mp happroved
    refine ⟨heligible, ?_, ⟨s.ordersThisRun, ?_, ?_⟩, ⟨slippage, edge, hslippage, hedge, hpost⟩,
      happroval, fun earlier hearlier => haccount₁.fresh earlier hearlier _ List.mem_cons_self⟩
    · rw [lastQuote, hsame.quoted]
      exact hquoted
    · rw [← horders₁]
      exact haccount₁.orders
    · rw [← haccount₁.guards, hguards₁]
      exact hpre
  · rintro log₂ ⟨s₂, record₂⟩ haccount₂
    refine wp_bind ((wp_appendExecutionRecord safely_quiet record₂ log₂).mono fun log₃ _ hidle₃ => ?_)
    exact wp_return (haccount₂.same (hidle₃.same lane) rfl rfl)

/-- **One round** of a regular lane. -/
theorem wp_step {s : LaneState} {proposal : Proposal} {rest : List Proposal}
    (hregular : Regular lane) (hmem : proposal ∈ proposals)
    (hlater : ∀ p ∈ rest, p.sourceSequenceNo ≠ proposal.sourceSequenceNo)
    (haccount : Account lane log s (proposal :: rest)) :
    Wp (Safely lane proposals) (fun log' s' => Account lane log' s' rest) log
      (lane.step format sha256 policyHash s proposal) := by
  unfold Lane.step
  dsimp only
  generalize (lane.record proposal _).advance .lawApproved = advanced
  refine wp_bind (wp_done fun record _ => ?_)
  by_cases hdenied : (evaluatePreQuote policyHash (lane.preQuoteContext s.guards s.ordersThisRun
      (isEligible (lane.entriesByAgent proposal.agentId)) proposal) lane.envelope).decision = .denied
  · rw [if_pos hdenied]
    refine wp_bind ((wp_emit safely_quiet _).mono ?_)
    rintro log₁ s₁ ⟨hidle, horders, hguards⟩
    refine wp_bind (wp_done fun record _ => ?_)
    refine wp_bind ((wp_appendExecutionRecord safely_quiet record log₁).mono fun log₂ _ hidle₂ => ?_)
    exact wp_return ((haccount.tail.same (hidle.same lane) horders hguards).same (hidle₂.same lane)
      rfl rfl)
  · rw [if_neg hdenied]
    exact wp_quoted hregular hmem hlater haccount (preQuote_passes.mp hdenied)

/-- The rounds of a regular lane, from its start. -/
theorem wp_runExecutionLane (hproposals : valueProposals format lane.runResult
      lane.envelope.minEdgeBps = .ok proposals) (hregular : Regular lane)
    (hdistinct : (proposals.map (·.sourceSequenceNo)).Nodup) :
    Wp (Safely lane proposals) (fun _ _ => True) []
      (lane.runExecutionLane format sha256 policyHash) := by
  unfold Lane.runExecutionLane
  rw [hproposals, ofCore, done_ok_bind]
  refine wp_bind (wp_foldlM (fun log s rest => Account lane log s rest ∧ (∀ p ∈ rest, p ∈ proposals) ∧
    (rest.map fun p => p.sourceSequenceNo).Nodup) ?_ ?_ ?_)
  · rintro log s proposal rest ⟨haccount, hmem, hnodup⟩
    rw [List.map_cons, List.nodup_cons] at hnodup
    have hlater : ∀ p ∈ rest, p.sourceSequenceNo ≠ proposal.sourceSequenceNo := by
      intro p hp heq
      exact hnodup.1 (heq ▸ List.mem_map_of_mem hp)
    refine (wp_step hregular (hmem proposal List.mem_cons_self) hlater haccount).mono ?_
    exact fun log' s' haccount' =>
      ⟨haccount', fun p hp => hmem p (List.mem_cons_of_mem _ hp), hnodup.2⟩
  · exact fun log s _ => wp_return trivial
  · have hstart : Account lane [] lane.start proposals :=
      ⟨le_rfl, rfl, fun earlier hearlier => absurd hearlier List.not_mem_nil⟩
    exact ⟨hstart, fun _ => id, hdistinct⟩

end Rounds

/-- **Every order of the lane passed every gate**, whatever the adapter, the store and the hook
answer: it is submitted only after its proposal has passed both gates with the values submitted. -/
theorem lane_orders_gated {format : Json.FloatFormat PyFloat} {sha256 : List Char → String}
    {policyHash : PolicyEnvelope → String} {lane : Lane} {proposals : List Proposal}
    (hproposals : valueProposals format lane.runResult lane.envelope.minEdgeBps = .ok proposals)
    (hregular : Regular lane) (hdistinct : (proposals.map (·.sourceSequenceNo)).Nodup)
    {log : AwaitLog} {rest : Shell (List Competition.CompetitionEvent)}
    (hheard : Heard (lane.runExecutionLane format sha256 policyHash) log rest)
    (hsizes : SizesQuoted log) :
    EachAfter (fun before entry => ∀ order ∈ submittedBy entry, ∃ proposal ∈ proposals, ∃ quote,
      Gated lane before order proposal quote) log := by
  have hsafe := ((wp_runExecutionLane hproposals hregular hdistinct).heard hheard).1
  rintro before ⟨question, answer⟩ after hlog order horder
  have hquestion := hsafe before _ after hlog
  cases question with
  | submitOrder order' =>
    obtain rfl : order' = order := Option.some.inj horder
    refine hquestion fun quoted hquoted => hsizes quoted ?_
    rw [hlog, List.filterMap_append]
    exact List.mem_append_left _ hquoted
  | quoteMarket _ _ | getOrderStatus _ | sleep | normalizeReceipt _ _ _ _ | broadcast _
  | appendExecutionRecord _ => exact nomatch horder

end Veridex.Execution
