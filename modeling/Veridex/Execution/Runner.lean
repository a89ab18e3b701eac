import Veridex.Competition.Events
import Veridex.Ingest.TxlineNormalize
import Veridex.Lib.Dialogue
import Veridex.Policy.Gate
import Veridex.Strategies.Value
import Veridex.Venues.Base

/-!
# The executor lane (`execution/runner.py`)

`runExecutionLane` takes the proposals of a sealed run through the two gates, one after the other, and
`resolveApproval` takes one that awaits a human. What they await is asked in a `Dialogue`: the
adapter, the store and the hook that broadcasts may answer anything or raise, and an answer carries a
value for every question. The sealed run is read and never written.

`normalize_receipt` is the adapter's too, and is asked like the rest. The digests are taken as given.
-/

namespace Veridex.Execution

open Veridex.Py Veridex.Lib Veridex.Runtime Veridex.Scoring Veridex.Policy Veridex.Strategies
open Veridex.Venues
open Veridex.Competition (CompetitionEvent buildPolicyResultEvent buildExecutionSubmittedEvent
  buildExecutionReceiptEvent buildApprovalAuditEvent)
open Veridex.Ingest (roundInt)

/-! ## What is awaited -/

/-- A call that leaves the shell. -/
inductive Await where
  | quoteMarket (marketRef : String) (forSize : PyFloat)
  | submitOrder (order : Order)
  | getOrderStatus (venueOrderId : String)
  | sleep
  | normalizeReceipt (executionId : String) (order : Order) (status : OrderStatus) (mode : String)
  | broadcast (event : CompetitionEvent)
  | appendExecutionRecord (record : ExecutionRecord)

/-- An answer: each call reads the value that is its own. -/
structure Answer where
  quote : Quote
  ack : SubmitAck
  status : OrderStatus
  receipt : ExecutionReceipt

/-- A computation of the shell. -/
abbrev Shell := Dialogue Await Answer PyExc

/-- What a computation of the core returns or raises. -/
def ofCore {α : Type} (outcome : Except PyExc α) : Shell α := .done outcome

def quoteMarket (marketRef : String) (forSize : PyFloat) : Shell Quote :=
  return (← Dialogue.call (.quoteMarket marketRef forSize)).quote

def submitOrder (order : Order) : Shell SubmitAck :=
  return (← Dialogue.call (.submitOrder order)).ack

def getOrderStatus (venueOrderId : String) : Shell OrderStatus :=
  return (← Dialogue.call (.getOrderStatus venueOrderId)).status

def normalizeReceipt (executionId : String) (order : Order) (status : OrderStatus) (mode : String) :
    Shell ExecutionReceipt :=
  return (← Dialogue.call (.normalizeReceipt executionId order status mode)).receipt

def appendExecutionRecord (record : ExecutionRecord) : Shell Unit := do
  let _ ← Dialogue.call (.appendExecutionRecord record)
  return ()

/-- The polls that are left. -/
def pollFrom (venueOrderId : String) : ℕ → OrderStatus → Shell OrderStatus
  | 0, last => return last
  | polls + 1, last =>
    if lower last.status ∈ terminalStatuses then return last
    else do
      let _ ← Dialogue.call .sleep
      pollFrom venueOrderId polls (← getOrderStatus venueOrderId)

/-- `poll_order_terminal`: ten seconds, in steps of a half. -/
def pollOrderTerminal (venueOrderId : String) : Shell OrderStatus := do
  pollFrom venueOrderId 20 (← getOrderStatus venueOrderId)

/-! ## Pricing and sizing -/

/-- `executable_edge_bps`. -/
def executableEdgeBps (probBps : ℤ) (executablePrice : PyFloat) : Except PyExc ℤ :=
  if executablePrice.le (.fin 0) then .ok 0
  else
    let p := (PyFloat.ofRat probBps).div (.fin 10000)
    roundInt (((p.mul executablePrice).sub (.fin 1)).mul (.fin 10000))

/-- `venue_implied_prob_bps`. -/
def venueImpliedProbBps (venueDecimalPrice : PyFloat) : Except PyExc ℤ :=
  if venueDecimalPrice.le (.fin 0) then .ok 0
  else roundInt ((PyFloat.fin 10000).div venueDecimalPrice)

/-- `mispricing_gap_bps`. -/
def mispricingGapBps (fairProbBps : ℤ) (venueDecimalPrice : PyFloat) : Except PyExc ℤ :=
  return fairProbBps - (← venueImpliedProbBps venueDecimalPrice)

/-- `min(a, b)`. -/
def pyMin (a b : PyFloat) : PyFloat := if b.lt a then b else a

/-- `abs(a)`. -/
def pyAbs (a : PyFloat) : PyFloat := if a.lt (.fin 0) then a.neg else a

/-- `_DEFAULT_BANKROLL`. -/
def defaultBankroll : PyFloat := .fin 1000

/-- `_size_stake`. -/
def sizeStake (kellyFraction bankroll maxStake : PyFloat) : PyFloat :=
  if kellyFraction.le (.fin 0) || kellyFraction == .nan then pyMin (.fin 1) maxStake
  else pyMin (((PyFloat.fin (1 / 2)).mul kellyFraction).mul bankroll) maxStake

/-- `_slippage_bps`. -/
def slippageBps (referencePrice quotePrice : PyFloat) : Except PyExc ℤ :=
  if referencePrice.le (.fin 0) then .ok 0
  else roundInt (((pyAbs (quotePrice.sub referencePrice)).div referencePrice).mul (.fin 10000))

/-! ## The adapter, the breaker and the order -/

/-- What is read of an adapter, besides its answers. -/
structure Adapter where
  venue : Option String
  className : String
  providesRealVenueQuote : Bool := false

/-- `_venue_name`. -/
def venueName (adapter : Adapter) : String :=
  match adapter.venue with
  | some venue => if venue.isEmpty then fromClass else venue
  | none => fromClass
where
  fromClass : String :=
    let name := ["VenueAdapter", "Adapter"].find? (adapter.className.endsWith ·)
    let name := (name.map fun suffix => (adapter.className.dropEnd suffix.length).toString).getD
      adapter.className
    if (lower name).isEmpty then name else lower name

/-- `BreakerCell`. -/
structure BreakerCell where
  breaker : CircuitBreaker := {}
  cooldownS : PyFloat := .fin 0
  deriving DecidableEq, Repr

/-- `_EXECUTED_FAILURE_TERMINALS`. -/
def executedFailureTerminals : List ExecutionStatus := [.rejected, .expired, .cancelled, .unresolved]

/-- The breaker after an executed outcome. -/
def BreakerCell.executed (cell : BreakerCell) (threshold : ℤ) (clock : PyFloat)
    (status : ExecutionStatus) : BreakerCell :=
  if status ∈ executedFailureTerminals then
    { cell with breaker := cell.breaker.recordFailure threshold clock }
  else { cell with breaker := cell.breaker.recordSuccess }

/-- The time-based recovery at the start. -/
def BreakerCell.resolved (cell : BreakerCell) (clock : PyFloat) : BreakerCell :=
  { cell with breaker := cell.breaker.resolve clock cell.cooldownS }

/-- The breaker the gate sees. -/
def gateBreaker (guards : Option BreakerCell) : CircuitBreaker :=
  match guards with
  | some cell => cell.breaker
  | none => {}

/-- `_POST_POLICY_PATH`. -/
def postPolicyPath : ExecutionStatus → List ExecutionStatus
  | .filled => [.submitted, .accepted, .filled]
  | .partialFill => [.submitted, .accepted, .partialFill]
  | .accepted => [.submitted, .accepted]
  | .rejected => [.submitted, .rejected]
  | .expired => [.submitted, .expired]
  | _ => [.submitted]

/-- An approved order: simulated in a dry run, and otherwise really submitted. -/
def placeOrder (executionMode executionId : String) (order : Order) : Shell ExecutionReceipt := do
  if executionMode = "dry_run" then
    let status : OrderStatus := {
      venueOrderId := "dryrun-" ++ executionId
      status := "filled"
      filledSize := order.size
      price := order.price }
    normalizeReceipt executionId order status "dry_run"
  else
    let ack ← submitOrder order
    let status ← pollOrderTerminal ack.venueOrderId
    normalizeReceipt executionId order status "live_guarded"

/-- The guards after a receipt, which move in live mode only. -/
def guardsAfter (executionMode : String) (threshold : ℤ) (clock : PyFloat) (status : ExecutionStatus)
    (guards : Option BreakerCell) : Option BreakerCell :=
  if executionMode = "live_guarded" then guards.map fun cell => cell.executed threshold clock status
  else guards

/-- `receipt.model_dump(mode="json")`. -/
def receiptJson (receipt : ExecutionReceipt) : Params :=
  [("execution_id", .str receipt.executionId), ("venue", .str receipt.venue),
    ("market_ref", .str receipt.marketRef), ("side", .str receipt.side),
    ("requested_size", .float receipt.requestedSize), ("filled_size", .float receipt.filledSize),
    ("price", .float receipt.price), ("status", .str receipt.status.text),
    ("venue_order_id", optionalText receipt.venueOrderId), ("mode", .str receipt.mode),
    ("submitted_at", optionalText receipt.submittedAt),
    ("settled_at", optionalText receipt.settledAt)]

/-- `AgentEntry`, as far as the lane reads it. -/
structure AgentEntry where
  agentId : String
  executionEligibility : Bool

/-- `bool(entry.execution_eligibility) if entry is not None else False`. -/
def isEligible (entry : Option AgentEntry) : Bool := (entry.map (·.executionEligibility)).getD false

section

variable (format : Json.FloatFormat PyFloat) (sha256 : List Char → String)
  (policyHash : PolicyEnvelope → String)

/-- The inputs of a lane, or of an approval. -/
structure LaneInputs where
  competitionId : String
  runResult : RunResult
  envelope : PolicyEnvelope
  adapter : Adapter
  executionMode : String
  baseSeq : ℤ
  eventTs : ℤ
  bankroll : PyFloat := defaultBankroll
  guards : Option BreakerCell := none
  now : Option PyFloat := none

namespace LaneInputs

/-- `clock`. -/
def clock (lane : LaneInputs) : PyFloat := lane.now.getD (PyFloat.ofRat lane.eventTs)

/-- The guards a run starts with. -/
def startGuards (lane : LaneInputs) : Option BreakerCell :=
  lane.guards.map (·.resolved lane.clock)

/-- A proposal's stake. -/
def stake (lane : LaneInputs) (proposal : Proposal) : PyFloat :=
  sizeStake proposal.kellyFraction lane.bankroll lane.envelope.maxStake

/-- What the first gate is told of a proposal. -/
def preQuoteContext (lane : LaneInputs) (guards : Option BreakerCell) (ordersThisRun : ℤ)
    (agentEligible : Bool) (proposal : Proposal) : PreQuoteContext where
  recomputedEdgeBps := proposal.recomputedEdgeBps
  stake := lane.stake proposal
  venue := venueName lane.adapter
  marketKey := proposal.marketKey
  ordersThisRun := ordersThisRun
  secondsSinceLastOrder := none
  agentEligible := agentEligible
  breaker := gateBreaker guards
  liveGuarded := lane.executionMode = "live_guarded"

/-- What the second gate is told of a proposal's quote. -/
def postQuoteContext (lane : LaneInputs) (proposal : Proposal) (quote : Quote)
    (slippage execEdge : ℤ) : PostQuoteContext where
  executableEdgeBps := execEdge
  price := quote.price
  slippageBps := slippage
  quoteAgeS := max 0 (lane.eventTs - quote.ts)
  stake := lane.stake proposal
  quotedSize := quote.size

/-- The order of a quoted proposal. -/
def order (lane : LaneInputs) (proposal : Proposal) (quote : Quote) (executionId : String) : Order where
  marketRef := proposal.marketKey
  side := proposal.side
  size := lane.stake proposal
  price := quote.price
  venue := venueName lane.adapter
  clientOrderId := executionId

/-- The submission of an order, as an event. -/
def submittedEvent (lane : LaneInputs) (seq : ℤ) (agentId executionId : String) (order : Order) :
    CompetitionEvent :=
  buildExecutionSubmittedEvent format sha256 lane.competitionId lane.runResult.runId seq lane.eventTs
    executionId [("execution_id", .str executionId), ("agent_id", .str agentId),
      ("venue", .str order.venue), ("market_ref", .str order.marketRef), ("side", .str order.side),
      ("size", .float order.size), ("price", .float order.price), ("mode", .str lane.executionMode)]

/-- The receipt of an order, as an event. -/
def receiptEvent (lane : LaneInputs) (seq : ℤ) (executionId : String) (receipt : ExecutionReceipt) :
    CompetitionEvent :=
  buildExecutionReceiptEvent format sha256 lane.competitionId lane.runResult.runId seq lane.eventTs
    executionId (receiptJson receipt)

end LaneInputs

/-- A decision of the gate, as a payload. -/
def decisionPayload (result : PolicyResult) : Params :=
  [("decision", .str result.decision.text), ("reason_codes", .arr (result.reasonCodes.map .str)),
    ("policy_hash", .str result.policyHash)]

/-! ## The lane -/

/-- A lane's own inputs. -/
structure Lane extends LaneInputs where
  entriesByAgent : String → Option AgentEntry
  broadcast : Bool := false

/-- What a lane has made so far. -/
structure LaneState where
  events : List CompetitionEvent := []
  seq : ℤ
  ordersThisRun : ℤ := 0
  guards : Option BreakerCell

namespace Lane

/-- `_emit` of the next event. -/
def emit (lane : Lane) (s : LaneState) (event : ℤ → CompetitionEvent) : Shell LaneState := do
  if lane.broadcast then
    let _ ← Dialogue.call (.broadcast (event s.seq))
  return { s with events := s.events ++ [event s.seq], seq := s.seq + 1 }

/-- `execution_id`. -/
def executionId (lane : Lane) (proposal : Proposal) : String :=
  lane.runResult.runId ++ ":" ++ String.ofList (Json.intText proposal.sourceSequenceNo)

/-- A proposal's record, approved by the law. -/
def record (lane : Lane) (proposal : Proposal) (hash : String) : ExecutionRecord where
  executionId := lane.executionId proposal
  competitionId := lane.competitionId
  runId := lane.runResult.runId
  agentId := proposal.agentId
  sourceSequenceNo := proposal.sourceSequenceNo
  status := .proposed
  policyHash := hash

/-- A gate's decision on a proposal, as an event. -/
def policyEvent (lane : Lane) (proposal : Proposal) (payload : Params) (seq : ℤ) : CompetitionEvent :=
  buildPolicyResultEvent format sha256 lane.competitionId lane.runResult.runId seq lane.eventTs
    proposal.agentId proposal.sourceSequenceNo payload (lane.executionId proposal)

/-- An approved proposal that is submitted. -/
def submit (lane : Lane) (s : LaneState) (proposal : Proposal) (quote : Quote)
    (record : ExecutionRecord) : Shell (LaneState × ExecutionRecord) := do
  let executionId := lane.executionId proposal
  let record ← ofCore (record.advance .policyApproved)
  let order := lane.order proposal quote executionId
  let receipt ← placeOrder lane.executionMode executionId order
  let record ← ofCore (record.advanceThrough (postPolicyPath receipt.status))
  let s := { s with
    ordersThisRun := s.ordersThisRun + 1
    guards := guardsAfter lane.executionMode lane.envelope.circuitBreakerThreshold lane.clock
      receipt.status s.guards }
  let s ← lane.emit s fun seq =>
    lane.submittedEvent format sha256 seq proposal.agentId executionId order
  let s ← lane.emit s fun seq => lane.receiptEvent format sha256 seq executionId receipt
  return (s, { record with receipt := some receipt })

/-- What the second gate's decision does to a proposal. -/
def settle (lane : Lane) (s : LaneState) (proposal : Proposal) (quote : Quote)
    (post : PolicyResult) (record : ExecutionRecord) : Shell (LaneState × ExecutionRecord) :=
  let agentEligible := isEligible (lane.entriesByAgent proposal.agentId)
  if post.decision = .denied then do return (s, ← ofCore (record.advance .rejected))
  else if post.decision = .requiresHuman then do return (s, ← ofCore (record.advance .awaitingHuman))
  else if lane.executionMode ≠ "paper" ∧ agentEligible then
    lane.submit format sha256 s proposal quote record
  else return (s, record)

/-- A proposal that the first gate has passed. -/
def quoted (lane : Lane) (s : LaneState) (proposal : Proposal) (record : ExecutionRecord) :
    Shell LaneState := do
  let quote ← quoteMarket proposal.marketKey (lane.stake proposal)
  let slippage ← ofCore (slippageBps proposal.referencePrice quote.price)
  let execEdge ← ofCore (executableEdgeBps proposal.entryProbBps quote.price)
  let gap ← ofCore (mispricingGapBps proposal.entryProbBps quote.price)
  let post := evaluatePostQuote policyHash (lane.postQuoteContext proposal quote slippage execEdge)
    lane.envelope
  let nativePrice := (quote.nativePrice.map .float).getD .null
  let s ← lane.emit s (lane.policyEvent format sha256 proposal (decisionPayload post ++
    [("phase", .str "post_quote"), ("slippage_bps", .int slippage),
      ("executable_edge_bps", .int execEdge), ("mispricing_gap_bps", .int gap),
      ("venue_decimal_price", .float quote.price), ("native_price", nativePrice),
      ("real_venue_quote", .bool lane.adapter.providesRealVenueQuote)]))
  let (s, record) ← lane.settle format sha256 s proposal quote post
    { record with policyHash := post.policyHash }
  appendExecutionRecord record
  return s

/-- One proposal. -/
def step (lane : Lane) (s : LaneState) (proposal : Proposal) : Shell LaneState := do
  let pre := evaluatePreQuote policyHash (lane.preQuoteContext s.guards s.ordersThisRun
    (isEligible (lane.entriesByAgent proposal.agentId)) proposal) lane.envelope
  let record ← ofCore ((lane.record proposal pre.policyHash).advance .lawApproved)
  if pre.decision = .denied then
    let s ← lane.emit s (lane.policyEvent format sha256 proposal
      (decisionPayload pre ++ [("phase", .str "pre_quote")]))
    let record ← ofCore (record.advance .rejected)
    appendExecutionRecord record
    return s
  else lane.quoted format sha256 policyHash s proposal record

/-- What a lane starts from. -/
def start (lane : Lane) : LaneState where
  seq := lane.baseSeq
  guards := lane.startGuards

/-- `run_execution_lane`. -/
def runExecutionLane (lane : Lane) : Shell (List CompetitionEvent) := do
  let proposals ← ofCore (valueProposals format lane.runResult lane.envelope.minEdgeBps)
  return (← proposals.foldlM (lane.step format sha256 policyHash) lane.start).events

end Lane

/-! ## Approvals -/

/-- The inputs of an approval. -/
structure Approval where
  record : ExecutionRecord
  runResult : RunResult
  envelope : PolicyEnvelope
  adapter : Adapter
  entry : Option AgentEntry
  executionMode : String
  baseSeq : ℤ
  eventTs : ℤ
  approverId : Option String
  note : Option String := none
  bankroll : PyFloat := defaultBankroll
  guards : Option BreakerCell := none
  now : Option PyFloat := none

/-- What the re-check of a proposal has found: the proposal and its quote where it is approved. -/
structure Review where
  approved : Option (Proposal × Quote)
  reasonCodes : List String
  policyHash : String

/-- What `resolve_approval` returns, with the guards it leaves. -/
structure Resolution where
  record : ExecutionRecord
  events : List CompetitionEvent
  decision : String
  guards : Option BreakerCell

namespace Approval

/-- What an approval shares with the lane. -/
def inputs (approval : Approval) : LaneInputs where
  competitionId := approval.record.competitionId
  runResult := approval.runResult
  envelope := approval.envelope
  adapter := approval.adapter
  executionMode := approval.executionMode
  baseSeq := approval.baseSeq
  eventTs := approval.eventTs
  bankroll := approval.bankroll
  guards := approval.guards
  now := approval.now

/-- The proposal of the record. -/
def proposal (approval : Approval) (proposals : List Proposal) : Option Proposal :=
  proposals.find? fun p => p.sourceSequenceNo = approval.record.sourceSequenceNo ∧
    p.agentId = approval.record.agentId

/-- The re-check of the policy and of the eligibility. -/
def review (approval : Approval) : Option Proposal → Shell Review
  | none => return {
      approved := none
      reasonCodes := ["proposal_no_longer_qualifies"]
      policyHash := policyHash approval.envelope }
  | some proposal =>
    -- the gate is told of no order, of the run or before
    let pre := evaluatePreQuote policyHash (approval.inputs.preQuoteContext
      approval.inputs.startGuards 0 (isEligible approval.entry) proposal) approval.envelope
    if pre.decision = .denied then
      return { approved := none, reasonCodes := pre.reasonCodes, policyHash := pre.policyHash }
    else do
      let quote ← quoteMarket proposal.marketKey (approval.inputs.stake proposal)
      let slippage ← ofCore (slippageBps proposal.referencePrice quote.price)
      let execEdge ← ofCore (executableEdgeBps proposal.entryProbBps quote.price)
      let post := evaluatePostQuote policyHash
        (approval.inputs.postQuoteContext proposal quote slippage execEdge) approval.envelope
      return {
        approved := if post.reasonCodes = [] then some (proposal, quote) else none
        reasonCodes := post.reasonCodes
        policyHash := post.policyHash }

/-- `_emit_audit`. -/
def auditEvent (approval : Approval) (decision hash : String) : CompetitionEvent :=
  buildApprovalAuditEvent format sha256 approval.record.competitionId approval.runResult.runId
    approval.baseSeq approval.eventTs approval.record.executionId
    [("approver_id", optionalText approval.approverId),
      ("execution_id", .str approval.record.executionId), ("policy_hash", .str hash),
      ("decision", .str decision), ("note", optionalText approval.note),
      ("ts", .int approval.eventTs)]

/-- The submission of an approved proposal. -/
def submit (approval : Approval) (proposal : Proposal) (quote : Quote) (hash : String) :
    Shell Resolution := do
  let executionId := approval.record.executionId
  let record ← ofCore (approval.record.advance .policyApproved)
  let order := approval.inputs.order proposal quote executionId
  let receipt ← placeOrder approval.executionMode executionId order
  let record ← ofCore (record.advanceThrough (postPolicyPath receipt.status))
  let record := { record with receipt := some receipt }
  appendExecutionRecord record
  return {
    record := record
    events := [approval.auditEvent format sha256 "approved" hash,
      approval.inputs.submittedEvent format sha256 (approval.baseSeq + 1) record.agentId executionId
        order,
      approval.inputs.receiptEvent format sha256 (approval.baseSeq + 2) executionId receipt]
    decision := "approved"
    guards := guardsAfter approval.executionMode approval.envelope.circuitBreakerThreshold
      approval.inputs.clock receipt.status approval.inputs.startGuards }

/-- The refusal of a proposal. -/
def refuse (approval : Approval) (reasonCodes : List String) (hash : String) : Shell Resolution := do
  let record ← ofCore (approval.record.advance .rejected)
  appendExecutionRecord record
  return {
    record := record
    events := [approval.auditEvent format sha256 "rejected" hash,
      buildPolicyResultEvent format sha256 record.competitionId approval.runResult.runId
        (approval.baseSeq + 1) approval.eventTs record.agentId record.sourceSequenceNo
        [("decision", .str PolicyDecision.denied.text),
          ("reason_codes", .arr (reasonCodes.map .str)), ("policy_hash", .str hash)]
        record.executionId]
    decision := "rejected"
    guards := approval.inputs.startGuards }

/-- `resolve_approval`. -/
def resolveApproval (approval : Approval) : Shell Resolution := do
  let proposals ← ofCore
    (valueProposals format approval.runResult approval.envelope.minEdgeBps)
  let review ← approval.review policyHash (approval.proposal proposals)
  match review.approved with
  | some (proposal, quote) => approval.submit format sha256 proposal quote review.policyHash
  | none => approval.refuse format sha256 review.reasonCodes review.policyHash

end Approval

end

end Veridex.Execution
