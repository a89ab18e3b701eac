import Veridex.DustExecution.Orders
import Veridex.DustExecution.SessionState

/-!
# One pass over the manifest universe (`runner.py`)

`runDustExecution` first lets every safety trigger fire, decides the session-level gates once, and
sweeps the orders it finds open on arming. It then walks the token universe. `decideAndSubmit`
abstains at the first gate that blocks and otherwise acts on the admitted intent.

The gates of one token come in two groups, before the quote is read (`preQuoteBlockReason`) and
after it (`submitBlockReason`), and each is the first reason of its group in the order the source
checks them. What the session-level gates decided is a `RunGates`.
-/

namespace Veridex.DustExecution

open Veridex.Py Veridex.Policy Veridex.Lib

/-! ## What a run is given and returns -/

/-- `CircuitState`. -/
inductive CircuitState where
  | closed
  | opened
  | halfOpen
  deriving DecidableEq, Repr

/-- `ShutdownPolicy`. -/
inductive ShutdownPolicy where
  | cancelAll
  | leaveOpen
  deriving DecidableEq, Repr

/-- The arguments of `run_dust_execution`. Of the breaker only its state is read. -/
structure RunInputs where
  digests : Digests
  seams : Seams
  envelope : PolicyEnvelope
  manifest : StrategyExperimentManifest
  mode : ExecutionMode
  walletEquityAtDecision : PyFloat
  fixedFraction : PyFloat
  request : Option MMExecutionToolRequest := none
  arming : Option ModeBArming := none
  operatorInterlockStore : Option OperatorInterlockStore := none
  sessionIdentity : Option String := none
  session : Option DustSafetySession := none
  risk : Option RiskAccumulator := none
  breaker : Option CircuitState := none
  realizedFills : List RealizedFillRecord := []
  ownLegs : List OwnOrderLeg := []
  tickSize : PyFloat := .fin (1 / 100)
  shutdownPolicy : ShutdownPolicy := .leaveOpen
  priorSessionOrderCount : ℤ := 0
  priorDayOrderCount : ℤ := 0

/-- `DustExecutionSessionMeta`. The two content hashes are not written yet. -/
structure DustExecutionSessionMeta where
  sessionId : String
  mode : ExecutionMode
  walletRef : SignerMode
  manifestHash : String
  policyHash : String
  capsSnapshot : List (String × PyFloat)
  marketFeeSnapshotHash : String
  operatorAuthorizationRef : String
  deriving DecidableEq

/-- `ShutdownDecision`. -/
structure ShutdownDecision where
  policy : ShutdownPolicy
  cancelAllFired : Bool
  alreadySatisfiedByPriorSweep : Bool
  deriving DecidableEq, Repr

/-- `SessionStatus`. -/
inductive SessionStatus where
  | success
  | failed
  deriving DecidableEq, Repr

/-- `SessionOutcome`. -/
structure SessionOutcome where
  status : SessionStatus
  promoted : Bool
  deriving DecidableEq, Repr

/-- `DustExecutionResult`. -/
structure DustExecutionResult where
  mode : ExecutionMode
  decisions : List SubmitDecision
  sessionMeta : DustExecutionSessionMeta
  events : List LifecycleEvent
  admission : StrategyAuthorizationDecision
  shutdownDecision : ShutdownDecision
  sessionOutcome : SessionOutcome

/-- `submitted_count`. -/
def DustExecutionResult.submittedCount (result : DustExecutionResult) : ℕ :=
  result.decisions.countP (·.submitted)

/-! ## The session preamble -/

/-- The literal of a mode. -/
def ExecutionMode.text : ExecutionMode → String
  | dryRun => "dry_run"
  | liveGuarded => "live_guarded"

/-- `provisional_session_id`. -/
def provisionalSessionId (manifest : StrategyExperimentManifest) (mode : ExecutionMode) : String :=
  manifest.strategyId ++ ":" ++ mode.text

/-- The session identity of the preamble: the one threaded in, or the provisional one. -/
def RunInputs.metaSessionId (inputs : RunInputs) : String :=
  inputs.sessionIdentity.getD (provisionalSessionId inputs.manifest inputs.mode)

/-- The safety session the run starts with. -/
def RunInputs.startSession (inputs : RunInputs) : DustSafetySession :=
  inputs.session.getD { sessionId := inputs.metaSessionId }

/-- The accumulator the run starts with. -/
def RunInputs.startRisk (inputs : RunInputs) : RiskAccumulator :=
  inputs.risk.getD (.new inputs.startSession.sessionId)

/-- `_build_session_meta`. The number of orders is printed as a `float`. -/
def buildSessionMeta (inputs : RunInputs) : Except PyExc DustExecutionSessionMeta := do
  let maxOrders ← (Value.int inputs.manifest.maxOrders).toFloat
  return {
    sessionId := inputs.metaSessionId
    mode := inputs.mode
    walletRef := inputs.seams.signer.mode
    manifestHash := inputs.digests.manifestHash inputs.manifest
    policyHash := inputs.digests.policyHash inputs.envelope
    capsSnapshot := [("max_orders", maxOrders), ("max_notional", inputs.manifest.maxNotional),
      ("max_session_loss", inputs.manifest.maxSessionLoss),
      ("max_daily_loss", inputs.manifest.maxDailyLoss)]
    marketFeeSnapshotHash := inputs.manifest.marketFeeSnapshotHash
    operatorAuthorizationRef := inputs.manifest.operatorAuthorization }

/-- The breaker is there and open. -/
def RunInputs.breakerOpen (inputs : RunInputs) : Bool := inputs.breaker = some .opened

/-- The runner's own resting legs. -/
def RunInputs.openOrderCount (inputs : RunInputs) : ℕ :=
  inputs.ownLegs.countP fun leg => leg.kind = .open

/-- `_build_risk_snapshot`. -/
def buildRiskSnapshot (inputs : RunInputs) (risk : RiskAccumulator) (seq : ℕ) (nowMs : ℤ) :
    SessionRiskSnapshot :=
  ⟨⟨seq, none, nowMs⟩, none, risk.realizedLossSession, risk.realizedLossDay,
    inputs.openOrderCount, inputs.breakerOpen, inputs.envelope.killSwitch⟩

/-- `_build_label_event`. -/
def buildLabelEvent (manifest : StrategyExperimentManifest) (seq : ℕ) (nowMs : ℤ) :
    DustRunLabelEvent :=
  ⟨⟨seq, none, nowMs⟩, manifest.evidenceClass⟩

/-! ## The emergency stop -/

/-- The safety session is replaced. -/
def setSession (session : DustSafetySession) : Lane Unit :=
  modify fun w => { w with session := session }

/-- The safety controller from where an entry into the sweep left it. -/
def finishCancelAll (seams : Seams) (cause : CancelAllCause) (sweep : Surface Unit ℤ) :
    CancelAllEntry → Lane CancelAllAck
  | .noop ack session => do
    setSession session
    return ack
  | .sweeping session => do
    setSession session
    let canceledCount ← ask sweep () .cancelAllOrders
    let w ← get
    let (ack, session) :=
      cancelAllAndBlockFinish (seams.clockMs w.history) cause canceledCount w.session
    setSession session
    return ack

/-- `cancel_all_and_block`. -/
def cancelAllAndBlock (seams : Seams) (cause : CancelAllCause) (sweep : Surface Unit ℤ) :
    Lane CancelAllAck := do
  let w ← get
  finishCancelAll seams cause sweep (cancelAllAndBlockEnter (seams.clockMs w.history) cause w.session)

/-- `_require_cancel_all_adapter`. -/
def requireCancelAllAdapter (adapter : Adapter) : Lane (Surface Unit ℤ) :=
  match adapter.cancelAllOrders with
  | some sweep => pure sweep
  | none => throw ⟨.typeError,
      "a safety trigger fired but the venue adapter cannot sweep resting orders"⟩

/-- A trigger, when it fires: the adapter must be able to sweep, and the controller is called. -/
def trigger (seams : Seams) (fires : Bool) (cause : CancelAllCause) : Lane Unit :=
  if fires then do
    let sweep ← requireCancelAllAdapter seams.adapter
    let _ack ← cancelAllAndBlock seams cause sweep
    return ()
  else return ()

/-- `on_realized_fill`. -/
def onRealizedFill (seams : Seams) (envelope : PolicyEnvelope) (sweep : Surface Unit ℤ)
    (fill : RealizedFillRecord) (risk : RiskAccumulator) : Lane RiskAccumulator := do
  let w ← get
  let (risk, entry) ← Prog.ofExcept
    (onRealizedFillEnter (seams.clockMs w.history) (.realized fill) risk envelope w.session)
  match entry with
  | none => return risk
  | some entry => do
    let _ack ← finishCancelAll seams .lossBreach sweep entry
    return risk

/-- The loop of `_apply_safety_triggers` over the fills. -/
def foldRealizedFills (seams : Seams) (envelope : PolicyEnvelope) :
    List RealizedFillRecord → RiskAccumulator → Lane RiskAccumulator
  | [], risk => return risk
  | fill :: fills, risk => do
    let sweep ← requireCancelAllAdapter seams.adapter
    let risk ← onRealizedFill seams envelope sweep fill risk
    foldRealizedFills seams envelope fills risk

/-- `_apply_safety_triggers`. -/
def applySafetyTriggers (inputs : RunInputs) (risk : RiskAccumulator) : Lane RiskAccumulator := do
  let risk ← foldRealizedFills inputs.seams inputs.envelope inputs.realizedFills risk
  trigger inputs.seams inputs.breakerOpen .breaker
  trigger inputs.seams inputs.envelope.killSwitch .killSwitch
  return risk

/-- `_read_startup_open_orders`: `none` when the open orders are not known. -/
def readStartupOpenOrders (adapter : Adapter) : Lane (Option (List Value)) := do
  match ← readSurface adapter.getOrders () .getOrders with
  | some (.list orders) => return some orders
  | _ => return none

/-- Submits are blocked on open orders that are not known, with a sweep where the adapter has one. -/
def blockOnUnknown (seams : Seams) : Lane Unit :=
  match seams.adapter.cancelAllOrders with
  | some sweep => do
    let _ack ← cancelAllAndBlock seams .manual sweep
    return ()
  | none => modify fun w =>
    { w with session := { w.session with submitBlocked := true, blockCause := some .manual } }

/-- `_startup_open_order_sweep`. -/
def startupOpenOrderSweep (seams : Seams) (enforce : Bool) : Lane ℤ := do
  match ← readStartupOpenOrders seams.adapter with
  | none => do
    if enforce then blockOnUnknown seams else pure ()
    return -1
  | some orders => do
    trigger seams (enforce && 0 < orders.length) .manual
    return orders.length

/-- `_apply_shutdown_decision`. -/
def applyShutdownDecision (inputs : RunInputs) : Lane ShutdownDecision := do
  if inputs.shutdownPolicy = .cancelAll ∧ inputs.mode = .liveGuarded then do
    let w ← get
    trigger inputs.seams true .shutdown
    return ⟨.cancelAll, !w.session.submitBlocked, w.session.submitBlocked⟩
  else return ⟨inputs.shutdownPolicy, false, false⟩

/-! ## The session-level gates -/

/-- `_build_admission`. -/
def buildAdmission (inputs : RunInputs) (risk : RiskAccumulator) (sessionId : String) :
    StrategyAuthorizationDecision :=
  .evaluate inputs.digests (some inputs.manifest) (inputs.digests.policyHash inputs.envelope)
    ⟨sessionId, risk.realizedLossSession, risk.realizedLossDay, inputs.openOrderCount,
      inputs.breakerOpen, inputs.envelope.killSwitch⟩

/-- The request declares the hashes of the run. -/
def RunInputs.DeclaresPins (inputs : RunInputs) (request : MMExecutionToolRequest) : Prop :=
  request.manifestHash = inputs.digests.manifestHash inputs.manifest ∧
    request.policyHash = inputs.digests.policyHash inputs.envelope ∧
    request.strategyConfigHash = inputs.manifest.strategyConfigHash

instance (inputs : RunInputs) (request : MMExecutionToolRequest) :
    Decidable (inputs.DeclaresPins request) :=
  inferInstanceAs (Decidable (_ ∧ _ ∧ _))

/-- `_authorization_block_reason`. -/
def authorizationBlockReason (inputs : RunInputs) (admission : StrategyAuthorizationDecision) :
    Option AbstainReason :=
  if ∃ request ∈ inputs.request, ¬ inputs.DeclaresPins request then some .manifestHashMismatch
  else if admission.verdict = .deny then some .admissionDenied
  else none

/-- `_loss_cap_block_reason`. -/
def lossCapBlockReason (risk : RiskAccumulator) (envelope : PolicyEnvelope)
    (manifest : StrategyExperimentManifest) : Option AbstainReason :=
  if capBreached (effectiveLossCap envelope.maxSessionLoss manifest.maxSessionLoss)
      risk.realizedLossSession then some .lossCapSession
  else if capBreached (effectiveLossCap envelope.maxDailyLoss manifest.maxDailyLoss)
      risk.realizedLossDay then some .lossCapDay
  else none

/-- `_effective_intent`. -/
def effectiveIntent : Option MMExecutionToolRequest → IntentKind × MMIntentParams
  | none => (.take, {})
  | some request => (request.intentKind, request.intentParams)

/-- `_intent_block_reason`. -/
def intentBlockReason (request : Option MMExecutionToolRequest)
    (manifest : StrategyExperimentManifest) : Option AbstainReason :=
  match request with
  | none => none
  | some request =>
    if request.intentKind.text ∉ manifest.permittedIntentKinds then some .intentNotPermitted
    else if request.intentKind = .noQuote then some .intentNoQuote
    else if request.intentKind = .cancelAll then some .intentCancelAll
    else none

/-- `_cap_reached`. -/
def capReached (count cap : ℤ) : Bool := 0 < cap ∧ cap ≤ count

/-- `_order_cap_block_reason`. -/
def orderCapBlockReason (ordersThisRun ordersThisSession ordersThisDay : ℤ)
    (envelope : PolicyEnvelope) (manifest : StrategyExperimentManifest) : Option AbstainReason :=
  if capReached ordersThisRun envelope.maxOrdersPerRun || capReached ordersThisRun manifest.maxOrders
    then some .orderCapRun
  else if capReached ordersThisSession envelope.maxOrdersPerSession then some .orderCapSession
  else if capReached ordersThisDay envelope.maxOrdersPerDay then some .orderCapDay
  else none

/-- What is decided once for the whole run. -/
structure RunGates where
  armingBlockReason : Option AbstainReason
  authorizationBlockReason : Option AbstainReason
  lossCapBlockReason : Option AbstainReason
  intent : IntentKind
  intentParams : MMIntentParams
  intentBlockReason : Option AbstainReason
  enforceIntentToken : Bool
  intentTargetToken : Option String
  wireSize : ℚ

/-- The order-count gate for the next order. -/
def RunInputs.orderCap (inputs : RunInputs) (ordersThisRun : ℕ) : Option AbstainReason :=
  orderCapBlockReason ordersThisRun (inputs.priorSessionOrderCount + ordersThisRun)
    (inputs.priorDayOrderCount + ordersThisRun) inputs.envelope inputs.manifest

/-! ## One token -/

/-- `_evaluate_submit_gate`. -/
def evaluateSubmitGate (quote : DustQuote) (nowS maxQuoteAgeS : ℤ) : Option AbstainReason :=
  if quote.eventSuspended then some .eventSuspended
  else if quote.noQuote then some .noQuote
  else match quote.bid, quote.ask with
    | some bid, some ask =>
      if bid.size.lt (.fin 0) || ask.size.lt (.fin 0) then some .negativeLiquidity
      else if maxQuoteAgeS < nowS - quote.quoteTsS then some .staleQuoteAge
      else none
    | _, _ => some .missingBookSide

/-- The gates before the quote is read. -/
def preQuoteBlockReason (inputs : RunInputs) (gates : RunGates) (tokenId : String) :
    Option AbstainReason :=
  gates.intentBlockReason <|>
    (if gates.enforceIntentToken ∧ some tokenId ≠ gates.intentTargetToken then
      some .intentTokenMismatch
    else none) <|>
    if inputs.mode = .liveGuarded then gates.armingBlockReason else none

/-- The gates after the quote is read. -/
def submitBlockReason (inputs : RunInputs) (gates : RunGates) (orderCap : Option AbstainReason)
    (quote : DustQuote) (nowS : ℤ) (session : DustSafetySession) : Option AbstainReason :=
  evaluateSubmitGate quote nowS inputs.envelope.maxQuoteAgeS <|>
    (if checkCanSubmit session then none else some .safetyBlocked) <|>
    gates.authorizationBlockReason <|> gates.lossCapBlockReason <|> orderCap

/-- `_resolve_taker_side_tif`: `none` when the parameters are incoherent. -/
def resolveTakerSideTif (params : MMIntentParams) : Option (Side × TimeInForce) :=
  let side := match params.side with
    | none => "BUY"
    | some side => if side = "" then "BUY" else side
  let tif := params.tif.getD .fok
  if tif = .fak ∨ tif = .fok then
    if side = "BUY" then some (.buy, tif)
    else if side = "SELL" then some (.sell, tif)
    else none
  else none

/-- The side of a maker: it has no default. -/
def restingSide : Option String → Option Side
  | some "BUY" => some .buy
  | some "SELL" => some .sell
  | _ => none

/-- `_build_resting_order`: `none` when a parameter is missing or a validator rejects the order. -/
def buildRestingOrder (tokenId : String) (manifest : StrategyExperimentManifest)
    (params : MMIntentParams) (wireSize : ℚ) (tickSize : PyFloat) : Option RestingOrder :=
  match restingSide params.side, params.price, params.tif with
  | some side, some nativePrice, some tif =>
    if tif = .gtc ∨ tif = .gtd then
      let clientOrderId := match params.clientOrderId with
        | some id => if id = "" then manifest.strategyId ++ ":" ++ tokenId else id
        | none => manifest.strategyId ++ ":" ++ tokenId
      (mkRestingOrder tokenId side wireSize nativePrice.val tickSize tif true none
        clientOrderId).toOption
    else none
  | _, _, _ => none

/-- `_non_crossing_gate`. -/
def nonCrossingGate (proposed : OwnOrderLeg) (ownLegs : List OwnOrderLeg) (tickSize : PyFloat) :
    Except PyExc (Option AbstainReason) := do
  let verdict ← checkNonCrossing (ownLegs ++ [proposed]) tickSize
  return if verdict.admitted then none else some .selfCross

/-- The lifecycle's context in a run. -/
def RunInputs.lifecycleContext (inputs : RunInputs) (quote : DustQuote) (nowS : ℤ) :
    LifecycleContext :=
  { seams := inputs.seams, mode := inputs.mode, nowS, tickSize := inputs.tickSize,
    arming := inputs.arming, sourceTs := quote.quoteTsS }

/-- An order goes on unless it crosses one of the runner's own legs. -/
def unlessCrossing (inputs : RunInputs) (tokenId : String) (side : Side) (price : PyFloat)
    (proposedTokenId : String) (place : Lane (SubmitDecision × List LifecycleEvent)) :
    Lane (SubmitDecision × List LifecycleEvent) := do
  match ← Prog.ofExcept
    (nonCrossingGate ⟨proposedTokenId, side.text, price, .proposed, none⟩ inputs.ownLegs
      inputs.tickSize) with
  | some reason => return (abstain tokenId reason, [])
  | none => place

/-- A `take` intent. -/
def dispatchTake (inputs : RunInputs) (gates : RunGates) (tokenId : String) (quote : DustQuote)
    (nowS : ℤ) : Lane (SubmitDecision × List LifecycleEvent) :=
  match resolveTakerSideTif gates.intentParams with
  | none => return (abstain tokenId .intentParamsInvalid, [])
  | some (side, tif) =>
    match quote.bid, quote.ask with
    | some bid, some ask =>
      unlessCrossing inputs tokenId side (crossingPrice side bid ask) tokenId
        (emitOrderLifecycle (inputs.lifecycleContext quote nowS) inputs.manifest quote side tif
          gates.wireSize)
    | _, _ => throw (assertionError "quote.bid is not None and quote.ask is not None")

/-- A `make_quote` or `cancel_replace` intent, once its order is built. -/
def emitMaker (inputs : RunInputs) (gates : RunGates) (tokenId : String) (quote : DustQuote)
    (nowS : ℤ) (resting : RestingOrder) : Lane (SubmitDecision × List LifecycleEvent) :=
  let ctx := inputs.lifecycleContext quote nowS
  if gates.intent = .cancelReplace then
    match gates.intentParams.replacesClientOrderId with
    | some replaces =>
      if replaces = "" then return (abstain tokenId .intentParamsInvalid, [])
      else emitCancelReplaceLifecycle ctx resting replaces
    | none => return (abstain tokenId .intentParamsInvalid, [])
  else emitRestingLifecycle ctx resting

/-- A `make_quote` or `cancel_replace` intent. -/
def dispatchMaker (inputs : RunInputs) (gates : RunGates) (tokenId : String) (quote : DustQuote)
    (nowS : ℤ) : Lane (SubmitDecision × List LifecycleEvent) :=
  match buildRestingOrder tokenId inputs.manifest gates.intentParams gates.wireSize
    inputs.tickSize with
  | none => return (abstain tokenId .intentParamsInvalid, [])
  | some resting =>
    unlessCrossing inputs tokenId resting.side (.fin resting.nativePrice) resting.tokenId
      (emitMaker inputs gates tokenId quote nowS resting)

/-- The admitted intent. -/
def dispatchIntent (inputs : RunInputs) (gates : RunGates) (tokenId : String) (quote : DustQuote)
    (nowS : ℤ) : Lane (SubmitDecision × List LifecycleEvent) :=
  if gates.intent = .take then dispatchTake inputs gates tokenId quote nowS
  else dispatchMaker inputs gates tokenId quote nowS

/-- `sources.read_quote`: `none` when the source refuses to serve a stale book. -/
def readQuote (seams : Seams) (tokenId : String) : Lane (Option DustQuote) :=
  tryCatch (do return some (← ask seams.readQuote tokenId (.readQuote tokenId))) fun e =>
    if e.cls = .staleVenueBook then pure none else throw e

/-- `_decide_and_submit`. -/
def decideAndSubmit (inputs : RunInputs) (gates : RunGates) (orderCap : Option AbstainReason)
    (tokenId : String) : Lane (SubmitDecision × List LifecycleEvent) :=
  match preQuoteBlockReason inputs gates tokenId with
  | some reason => return (abstain tokenId reason, [])
  | none => do
    match ← readQuote inputs.seams tokenId with
    | none => return (abstain tokenId .staleSource, [])
    | some quote => do
      let nowS ← nowS inputs.seams
      let w ← get
      match submitBlockReason inputs gates orderCap quote nowS w.session with
      | some reason => return (abstain tokenId reason, [])
      | none => dispatchIntent inputs gates tokenId quote nowS

/-! ## The run -/

/-- `_decision_placed`. -/
def decisionPlaced (decision : SubmitDecision) : Bool :=
  decision.submitted || decision.abstainReason = some .modeANoOrders

/-- The loop over the universe. -/
def runTokens (inputs : RunInputs) (gates : RunGates) :
    List String → ℕ → Lane (List SubmitDecision × List LifecycleEvent)
  | [], _ => return ([], [])
  | tokenId :: tokenIds, ordersThisRun => do
    let (decision, tokenEvents) ←
      decideAndSubmit inputs gates (inputs.orderCap ordersThisRun) tokenId
    let (decisions, events) ← runTokens inputs gates tokenIds
      (if decisionPlaced decision then ordersThisRun + 1 else ordersThisRun)
    return (decision :: decisions, tokenEvents ++ events)

/-- A reconciliation froze: it is ambiguous and its decision reached the wire. -/
def reconciliationFrozen (events : List LifecycleEvent) : Bool :=
  events.any fun
    | .realFillReconciliation e =>
      e.reconciledState = .ambiguous && e.decisionId ∈ submittedDecisionIds events
    | _ => false

/-- `_resolve_session_outcome`. -/
def resolveSessionOutcome (inputs : RunInputs) (risk : RiskAccumulator)
    (events : List LifecycleEvent) : SessionOutcome :=
  let failed := risk.breachesCaps inputs.envelope || inputs.breakerOpen ||
    inputs.envelope.killSwitch || reconciliationFrozen events
  ⟨if failed then .failed else .success, false⟩

/-- The arming gate: a dry run never arms. -/
def armingBlockReason (inputs : RunInputs) (sessionId : String) : Lane (Option AbstainReason) :=
  match inputs.mode with
  | .liveGuarded => modeBArmingBlockReason inputs.digests inputs.arming inputs.manifest
      inputs.envelope inputs.seams.signer sessionId inputs.operatorInterlockStore
  | .dryRun => pure none

/-- The session-level gates, in the order they are decided. -/
def decideGates (inputs : RunInputs) (risk : RiskAccumulator)
    (admission : StrategyAuthorizationDecision) : Lane RunGates := do
  let arming ← armingBlockReason inputs inputs.startSession.sessionId
  let (intent, intentParams) := effectiveIntent inputs.request
  let blocked := intentBlockReason inputs.request inputs.manifest
  let enforceIntentToken := inputs.request.isSome && blocked.isNone
  let wireSize ← Prog.ofExcept (resolveWireSize inputs.manifest inputs.envelope
    inputs.walletEquityAtDecision inputs.fixedFraction)
  return {
    armingBlockReason := arming
    authorizationBlockReason := authorizationBlockReason inputs admission
    lossCapBlockReason := lossCapBlockReason risk inputs.envelope inputs.manifest
    intent
    intentParams
    intentBlockReason := blocked
    enforceIntentToken
    intentTargetToken := if enforceIntentToken then intentParams.tokenId else none
    wireSize }

/-- The stages before the token loop that touch the venue, and the first event. -/
def openRun (inputs : RunInputs) (risk : RiskAccumulator) (gates : RunGates) :
    Lane LifecycleEvent := do
  let seq ← nextSeq
  let now ← nowS inputs.seams
  let snapshot := buildRiskSnapshot inputs risk seq (now * 1000)
  let _count ← startupOpenOrderSweep inputs.seams
    (inputs.mode = .liveGuarded && gates.armingBlockReason.isNone)
  trigger inputs.seams
    (gates.intentBlockReason = some .intentCancelAll && inputs.mode = .liveGuarded) .manual
  return .sessionRiskSnapshot snapshot

/-- The stages after the token loop: the label event and the shutdown. -/
def closeRun (inputs : RunInputs) : Lane (LifecycleEvent × ShutdownDecision) := do
  let seq ← nextSeq
  let now ← nowS inputs.seams
  let shutdownDecision ← applyShutdownDecision inputs
  return (.dustRunLabelEvent (buildLabelEvent inputs.manifest seq (now * 1000)), shutdownDecision)

/-- A run starts with its session and a fresh sequence counter. -/
def startRun (inputs : RunInputs) : Lane Unit :=
  modify fun w => { w with session := inputs.startSession, nextSeq := 1 }

/-- `run_dust_execution`. -/
def runDustExecution (inputs : RunInputs) : Lane DustExecutionResult := do
  let sessionMeta ← Prog.ofExcept (buildSessionMeta inputs)
  startRun inputs
  let risk ← applySafetyTriggers inputs inputs.startRisk
  let admission := buildAdmission inputs risk inputs.startSession.sessionId
  let gates ← decideGates inputs risk admission
  let snapshot ← openRun inputs risk gates
  let (decisions, tokenEvents) ← runTokens inputs gates inputs.manifest.tokenUniverse 0
  let (label, shutdownDecision) ← closeRun inputs
  let events := snapshot :: (tokenEvents ++ [label])
  return {
    mode := inputs.mode
    decisions
    sessionMeta
    events
    admission
    shutdownDecision
    sessionOutcome := resolveSessionOutcome inputs risk events }

end Veridex.DustExecution
