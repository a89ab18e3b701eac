import Veridex.Py.Basic

/-!
# The market-maker agents (`maker/contracts.py`, `maker/state_machine.py`, `maker/agents.py`)

An agent proposes quotes from what it is shown: the reference fair value, the venue's mid, an
inventory and some parameters. Prices are rationals. What the sources read out of untyped
dictionaries with a default is a field here, with that default.

Results: `naive_quotes` and `txLineFair_quotes` (what each agent quotes on), `price_of_mem_bracket`
(a quoted price is a native probability).
-/

namespace Veridex.Maker

open Veridex.Py

/-- `Side`. -/
inductive Side where
  | bid
  | ask
  deriving DecidableEq, Repr

/-- `TargetQuote`, without the fields no scoring reads. -/
structure TargetQuote where
  side : Side
  marketKey : String
  price : ℚ
  size : ℚ
  deriving DecidableEq, Repr

/-- `TargetQuoteSet`, without the inventory snapshot. -/
structure TargetQuoteSet where
  fixtureId : ℤ
  tickSeq : ℤ
  ts : ℤ
  quotes : List TargetQuote
  regime : String := "QUIET"
  deriving DecidableEq, Repr

/-! ## The state machine -/

/-- `MakerState`. -/
inductive MakerState where
  | makerSafe
  | widen
  | oneSidedReduce
  | noQuote
  deriving DecidableEq, Repr

def MakerState.value : MakerState → String
  | makerSafe => "MAKER_SAFE"
  | widen => "WIDEN"
  | oneSidedReduce => "ONE_SIDED_REDUCE"
  | noQuote => "NO_QUOTE"

/-- `GateContext`. -/
structure GateContext where
  suspended : Bool
  stalenessS : ℤ
  freshnessS : ℤ
  eventCooldownActive : Bool
  fairVolBps : ℤ
  fairVolWidenBps : ℤ
  inventory : ℚ
  inventoryExtreme : ℚ

/-- `classify_state`. -/
def classifyState (ctx : GateContext) : MakerState :=
  if ctx.suspended || ctx.stalenessS > ctx.freshnessS || ctx.eventCooldownActive then .noQuote
  else if |ctx.inventory| ≥ ctx.inventoryExtreme then .oneSidedReduce
  else if ctx.fairVolBps ≥ ctx.fairVolWidenBps then .widen
  else .makerSafe

/-! ## The agents -/

/-- `reference_fv`. -/
structure ReferenceFv where
  fv : Option ℚ
  suspended : Bool := false
  stalenessS : ℤ := 0
  eventCooldownActive : Bool := false
  fairVolBps : ℤ := 0

/-- `params`. -/
structure QuoteParams where
  freshnessS : ℤ := 120
  fairVolWidenBps : ℤ := 300
  inventoryExtreme : ℚ := 1 / 2
  widenMultiplier : ℚ := 1

/-- The arguments of `propose`. -/
structure View where
  referenceFv : ReferenceFv
  mid : ℚ
  inventoryNet : ℚ := 0
  params : QuoteParams := {}
  clock : ℤ

/-- `MarketMakerAgent`. -/
structure MarketMakerAgent where
  agentId : String
  propose : View → TargetQuoteSet

/-- `_MARKET_KEY`. -/
def marketKey : String := "1X2|home|full"

/-- `_settlement_abstains`. -/
def settlementAbstains (anchor halfSpread : ℚ) : Bool :=
  anchor - halfSpread ≤ 0 || anchor + halfSpread ≥ 1

/-- The bid below an anchor. -/
def bidQuote (anchor halfSpread : ℚ) : TargetQuote :=
  ⟨.bid, marketKey, pyRoundTo 4 (anchor - halfSpread), 1⟩

/-- The ask above it. -/
def askQuote (anchor halfSpread : ℚ) : TargetQuote :=
  ⟨.ask, marketKey, pyRoundTo 4 (anchor + halfSpread), 1⟩

/-- `TargetQuoteSet(..., quotes=[], regime=MakerState.NO_QUOTE.value)`. -/
def noQuotes (clock : ℤ) : TargetQuoteSet := ⟨0, 0, clock, [], MakerState.noQuote.value⟩

/-- `NaiveMarketMakerAgent`. -/
def naiveMarketMakerAgent (agentId : String := "naive-mm") (fixedHalfSpread : ℚ := 1 / 50) :
    MarketMakerAgent where
  agentId := agentId
  propose view :=
    if settlementAbstains view.mid fixedHalfSpread then noQuotes view.clock
    else
      let bid := bidQuote view.mid fixedHalfSpread
      let ask := askQuote view.mid fixedHalfSpread
      { fixtureId := 0, tickSeq := 0, ts := view.clock, quotes := [bid, ask] }

/-- The context the fair agent classifies. -/
def gateContext (view : View) : GateContext where
  suspended := view.referenceFv.suspended
  stalenessS := view.referenceFv.stalenessS
  freshnessS := view.params.freshnessS
  eventCooldownActive := view.referenceFv.eventCooldownActive
  fairVolBps := view.referenceFv.fairVolBps
  fairVolWidenBps := view.params.fairVolWidenBps
  inventory := view.inventoryNet
  inventoryExtreme := view.params.inventoryExtreme

/-- `TxLineFairMarketMakerAgent`. -/
def txLineFairMarketMakerAgent (agentId : String := "txline-fair-mm")
    (baseHalfSpread : ℚ := 1 / 50) : MarketMakerAgent where
  agentId := agentId
  propose view :=
    match view.referenceFv.fv with
    | none => noQuotes view.clock
    | some fv =>
      let state := classifyState (gateContext view)
      if state = .noQuote then noQuotes view.clock
      else
        let halfSpread :=
          if state = .widen then baseHalfSpread * view.params.widenMultiplier else baseHalfSpread
        if settlementAbstains fv halfSpread then noQuotes view.clock
        else
          let bid := bidQuote fv halfSpread
          let ask := askQuote fv halfSpread
          let quotes :=
            if state = .oneSidedReduce then if view.inventoryNet > 0 then [ask] else [bid]
            else [bid, ask]
          { fixtureId := 0, tickSeq := 0, ts := view.clock, quotes := quotes,
            regime := state.value }

/-! ## What they quote -/

/-- The two quotes around an anchor, where they fit. -/
def bracket (anchor halfSpread : ℚ) : List TargetQuote :=
  if settlementAbstains anchor halfSpread then []
  else [bidQuote anchor halfSpread, askQuote anchor halfSpread]

/-- **The naive agent** brackets the mid. -/
theorem naive_quotes (view : View) :
    (naiveMarketMakerAgent.propose view).quotes = bracket view.mid (1 / 50) ∧
      (naiveMarketMakerAgent.propose view).ts = view.clock := by
  simp only [naiveMarketMakerAgent, bracket]
  split_ifs
  · exact ⟨rfl, rfl⟩
  · exact ⟨rfl, rfl⟩

/-- Nothing gates the fair agent when it is shown a fair value alone. -/
theorem classifyState_gateContext (fv mid : ℚ) (clock : ℤ) :
    classifyState (gateContext { referenceFv := { fv := some fv }, mid, clock }) = .makerSafe := by
  simp [classifyState, gateContext]

/-- **The fair agent** brackets the fair value, when it is shown that alone. -/
theorem txLineFair_quotes (fv mid : ℚ) (clock : ℤ) :
    (txLineFairMarketMakerAgent.propose
        { referenceFv := { fv := some fv }, mid, clock }).quotes = bracket fv (1 / 50) ∧
      (txLineFairMarketMakerAgent.propose
        { referenceFv := { fv := some fv }, mid, clock }).ts = clock := by
  simp only [txLineFairMarketMakerAgent, classifyState_gateContext, bracket, reduceCtorEq, if_false]
  split_ifs
  · exact ⟨rfl, rfl⟩
  · exact ⟨rfl, rfl⟩

/-- **A quoted price** is a native probability. -/
theorem price_of_mem_bracket {anchor halfSpread : ℚ} (hhalf : 0 ≤ halfSpread) {quote : TargetQuote}
    (h : quote ∈ bracket anchor halfSpread) : 0 ≤ quote.price ∧ quote.price ≤ 1 := by
  unfold bracket at h
  split_ifs at h with habstains
  · exact absurd h List.not_mem_nil
  · simp only [settlementAbstains, Bool.or_eq_true, decide_eq_true_eq, not_or, not_le,
      ge_iff_le] at habstains
    obtain ⟨hlow, hhigh⟩ := habstains
    rcases List.mem_pair.mp h with rfl | rfl
    · exact ⟨pyRoundTo_nonneg hlow.le, pyRoundTo_le_one (by linarith)⟩
    · exact ⟨pyRoundTo_nonneg (by linarith), pyRoundTo_le_one hhigh.le⟩

end Veridex.Maker
