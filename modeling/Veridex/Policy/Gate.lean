import Veridex.Policy.Envelope

/-!
# The two-phase policy gate (`policy/gate.py`, `policy/engine.py`)

`evaluatePreQuote` checks what is known before a quote is asked for, `evaluatePostQuote` what depends
on the quote. Every failing check gives its reason code; the hash of an envelope is taken as given.

Results: `preQuote_passes` and `postQuote_approved` (what a pass of each phase has compared).
-/

namespace Veridex.Policy

open Veridex.Py

/-- `PolicyDecision`. -/
inductive PolicyDecision where
  | approved
  | denied
  | requiresHuman
  deriving DecidableEq, Repr

/-- The decision's value. -/
def PolicyDecision.text : PolicyDecision → String
  | approved => "approved"
  | denied => "denied"
  | requiresHuman => "requires_human"

/-- `PolicyResult`. -/
structure PolicyResult where
  decision : PolicyDecision
  reasonCodes : List String
  policyHash : String
  deriving DecidableEq, Repr

/-- `PreQuoteContext`. -/
structure PreQuoteContext where
  recomputedEdgeBps : ℤ
  stake : PyFloat
  venue : String
  marketKey : String
  ordersThisRun : ℤ
  secondsSinceLastOrder : Option ℤ
  agentEligible : Bool
  breaker : CircuitBreaker := {}
  liveGuarded : Bool := false
  realizedLossSession : ℚ := 0
  realizedLossDay : ℚ := 0
  ordersThisSession : ℤ := 0
  ordersThisDay : ℤ := 0

/-- `PostQuoteContext`. -/
structure PostQuoteContext where
  executableEdgeBps : ℤ
  price : PyFloat
  slippageBps : ℤ
  quoteAgeS : ℤ
  stake : PyFloat
  quotedSize : PyFloat := .posInf

/-- `reasons.append(reason)`, under a condition. -/
def reasonIf (condition : Bool) (reason : String) : List String := if condition then [reason] else []

@[simp] theorem reasonIf_eq_nil {condition : Bool} {reason : String} :
    reasonIf condition reason = [] ↔ condition = false := by
  cases condition <;> simp [reasonIf]

/-- What `evaluate_pre_quote` has against a context. -/
def preQuoteReasons (ctx : PreQuoteContext) (envelope : PolicyEnvelope) : List String :=
  reasonIf envelope.killSwitch "kill_switch_on" ++
  reasonIf (!ctx.breaker.allows) "circuit_open" ++
  reasonIf (ctx.recomputedEdgeBps < envelope.minEdgeBps) "edge_below_min" ++
  reasonIf (envelope.maxStake.lt ctx.stake) "stake_over_max" ++
  reasonIf (ctx.liveGuarded && (PyFloat.fin 0).lt envelope.maxStakeLiveGuarded &&
    envelope.maxStakeLiveGuarded.lt ctx.stake) "stake_over_live_guarded" ++
  reasonIf (!envelope.venueAllowlist.contains ctx.venue) "venue_not_allowed" ++
  reasonIf (!envelope.marketAllowlist.contains ctx.marketKey) "market_not_allowed" ++
  reasonIf (envelope.maxOrdersPerRun ≤ ctx.ordersThisRun) "order_cap_run" ++
  reasonIf (envelope.maxOrdersPerSession ≤ ctx.ordersThisSession) "order_cap_session" ++
  reasonIf (envelope.maxOrdersPerDay ≤ ctx.ordersThisDay) "order_cap_day" ++
  reasonIf (capBreached envelope.maxSessionLoss ctx.realizedLossSession) "session_loss_over_max" ++
  reasonIf (capBreached envelope.maxDailyLoss ctx.realizedLossDay) "daily_loss_over_max" ++
  reasonIf (ctx.secondsSinceLastOrder.any fun seconds => seconds < envelope.cooldownS)
    "cooldown_active" ++
  reasonIf (!ctx.agentEligible) "agent_not_eligible"

/-- What `evaluate_post_quote` has against a context. -/
def postQuoteReasons (ctx : PostQuoteContext) (envelope : PolicyEnvelope) : List String :=
  reasonIf (envelope.maxQuoteAgeS < ctx.quoteAgeS) "quote_stale" ++
  reasonIf (ctx.quotedSize.lt ctx.stake) "insufficient_liquidity" ++
  reasonIf (envelope.maxSlippageBps < ctx.slippageBps) "slippage_over_max" ++
  reasonIf (ctx.executableEdgeBps < envelope.minEdgeBps) "edge_below_min" ++
  reasonIf (envelope.maxPrice.lt ctx.price) "price_over_max" ++
  reasonIf (envelope.maxStake.lt ctx.stake) "stake_over_max"

section

variable (policyHash : PolicyEnvelope → String)

/-- `evaluate_pre_quote`. -/
def evaluatePreQuote (ctx : PreQuoteContext) (envelope : PolicyEnvelope) : PolicyResult where
  decision := if preQuoteReasons ctx envelope = [] then .approved else .denied
  reasonCodes := preQuoteReasons ctx envelope
  policyHash := policyHash envelope

/-- `evaluate_post_quote`. -/
def evaluatePostQuote (ctx : PostQuoteContext) (envelope : PolicyEnvelope) : PolicyResult where
  decision :=
    if postQuoteReasons ctx envelope ≠ [] then .denied
    else if envelope.humanApprovalThreshold.le ctx.stake then .requiresHuman
    else .approved
  reasonCodes := postQuoteReasons ctx envelope
  policyHash := policyHash envelope

end

/-! ## What a pass has compared -/

/-- The checks of the first phase. -/
structure PreQuotePass (ctx : PreQuoteContext) (envelope : PolicyEnvelope) : Prop where
  killSwitch : envelope.killSwitch = false
  breaker : ctx.breaker.allows = true
  edge : envelope.minEdgeBps ≤ ctx.recomputedEdgeBps
  stake : envelope.maxStake.lt ctx.stake = false
  live : ctx.liveGuarded = true → (PyFloat.fin 0).lt envelope.maxStakeLiveGuarded = true →
    envelope.maxStakeLiveGuarded.lt ctx.stake = false
  venue : ctx.venue ∈ envelope.venueAllowlist
  market : ctx.marketKey ∈ envelope.marketAllowlist
  runCap : ctx.ordersThisRun < envelope.maxOrdersPerRun
  sessionCap : ctx.ordersThisSession < envelope.maxOrdersPerSession
  dayCap : ctx.ordersThisDay < envelope.maxOrdersPerDay
  sessionLoss : capBreached envelope.maxSessionLoss ctx.realizedLossSession = false
  dailyLoss : capBreached envelope.maxDailyLoss ctx.realizedLossDay = false
  cooldown : ∀ seconds, ctx.secondsSinceLastOrder = some seconds → envelope.cooldownS ≤ seconds
  eligible : ctx.agentEligible = true

/-- The checks of the second phase. -/
structure PostQuotePass (ctx : PostQuoteContext) (envelope : PolicyEnvelope) : Prop where
  age : ctx.quoteAgeS ≤ envelope.maxQuoteAgeS
  depth : ctx.quotedSize.lt ctx.stake = false
  slippage : ctx.slippageBps ≤ envelope.maxSlippageBps
  edge : envelope.minEdgeBps ≤ ctx.executableEdgeBps
  price : envelope.maxPrice.lt ctx.price = false
  stake : envelope.maxStake.lt ctx.stake = false

theorem preQuoteReasons_eq_nil {ctx : PreQuoteContext} {envelope : PolicyEnvelope} :
    preQuoteReasons ctx envelope = [] ↔ PreQuotePass ctx envelope := by
  simp only [preQuoteReasons, List.append_eq_nil_iff, reasonIf_eq_nil]
  constructor
  · intro h
    obtain ⟨⟨⟨⟨⟨⟨⟨⟨⟨⟨⟨⟨⟨hkill, hbreaker⟩, hedge⟩, hstake⟩, hlive⟩, hvenue⟩, hmarket⟩, hrun⟩, hsession⟩,
      hday⟩, hsessionLoss⟩, hdailyLoss⟩, hcooldown⟩, heligible⟩ := h
    refine ⟨hkill, by simpa using hbreaker, by simpa using hedge, hstake, ?_, by simpa using hvenue,
      by simpa using hmarket, by simpa using hrun, by simpa using hsession, by simpa using hday,
      hsessionLoss, hdailyLoss, ?_, by simpa using heligible⟩
    · intro hguarded henabled
      simpa [hguarded, henabled] using hlive
    · intro seconds hseconds
      simpa [hseconds] using hcooldown
  · intro h
    refine ⟨⟨⟨⟨⟨⟨⟨⟨⟨⟨⟨⟨⟨h.killSwitch, by simpa using h.breaker⟩, by simpa using h.edge⟩, h.stake⟩, ?_⟩,
      by simpa using h.venue⟩, by simpa using h.market⟩, by simpa using h.runCap⟩,
      by simpa using h.sessionCap⟩, by simpa using h.dayCap⟩, h.sessionLoss⟩, h.dailyLoss⟩, ?_⟩,
      by simpa using h.eligible⟩
    · by_cases hguarded : ctx.liveGuarded = true
      · by_cases henabled : (PyFloat.fin 0).lt envelope.maxStakeLiveGuarded = true
        · simpa [hguarded, henabled] using h.live hguarded henabled
        · simp [henabled]
      · simp [hguarded]
    · cases hseconds : ctx.secondsSinceLastOrder with
      | none => rfl
      | some seconds => simpa using h.cooldown seconds hseconds

theorem postQuoteReasons_eq_nil {ctx : PostQuoteContext} {envelope : PolicyEnvelope} :
    postQuoteReasons ctx envelope = [] ↔ PostQuotePass ctx envelope := by
  simp only [postQuoteReasons, List.append_eq_nil_iff, reasonIf_eq_nil]
  constructor
  · rintro ⟨⟨⟨⟨⟨hage, hdepth⟩, hslippage⟩, hedge⟩, hprice⟩, hstake⟩
    exact ⟨by simpa using hage, hdepth, by simpa using hslippage, by simpa using hedge, hprice, hstake⟩
  · intro h
    exact ⟨⟨⟨⟨⟨by simpa using h.age, h.depth⟩, by simpa using h.slippage⟩, by simpa using h.edge⟩,
      h.price⟩, h.stake⟩

variable {policyHash : PolicyEnvelope → String}

/-- **The first phase** is passed when every check is. -/
theorem preQuote_passes {ctx : PreQuoteContext} {envelope : PolicyEnvelope} :
    (evaluatePreQuote policyHash ctx envelope).decision ≠ .denied ↔ PreQuotePass ctx envelope := by
  rw [← preQuoteReasons_eq_nil]
  by_cases h : preQuoteReasons ctx envelope = []
  · simp [evaluatePreQuote, h]
  · simp [evaluatePreQuote, h]

/-- **The second phase** approves what passes every check below the approval threshold. -/
theorem postQuote_approved {ctx : PostQuoteContext} {envelope : PolicyEnvelope} :
    (evaluatePostQuote policyHash ctx envelope).decision = .approved ↔
      PostQuotePass ctx envelope ∧ envelope.humanApprovalThreshold.le ctx.stake = false := by
  rw [← postQuoteReasons_eq_nil]
  by_cases h : postQuoteReasons ctx envelope = []
  · by_cases hstake : envelope.humanApprovalThreshold.le ctx.stake = true
    · simp [evaluatePostQuote, h, hstake]
    · simp [evaluatePostQuote, h, hstake]
  · simp [evaluatePostQuote, h]

end Veridex.Policy
