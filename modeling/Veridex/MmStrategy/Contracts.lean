import Veridex.Py.Basic

/-!
# The neutral strategy contracts (`mm_strategy/contracts.py`)

The observation of one tick, the state carried between ticks and the decision taken on one. What a
pydantic validator checks is a field of the structure, so a value is one the sources can construct.

* A `float` that a validator forces to be finite is a rational.
* Timestamps, epochs and sequence numbers are Python integers.
* `StrategyState.outcomes`, `inventory_echo` and `quote_lineage` are neither read nor written by
  the core and are left out, and so are a decision's `fv_message_id` and `fv_proof_status`.
-/

namespace Veridex.MmStrategy

open Veridex.Py

/-! ## Closed vocabularies -/

/-- `MarketStatus`. -/
inductive MarketStatus where
  | active
  | halted
  | closed
  | unknown
  deriving DecidableEq, Repr

/-- `BookStatus`. -/
inductive BookStatus where
  | ok
  | gap
  | excluded
  deriving DecidableEq, Repr

/-- `NeutralIntentKind`. -/
inductive NeutralIntentKind where
  | placeQuote
  | replaceQuote
  | cancelAllOrders
  | abstain
  deriving DecidableEq, Repr

/-- `DecisionKind`. -/
inductive DecisionKind where
  | quoteTwoSided
  | quoteOneSided
  | oneSidedReduce
  | noQuote
  | hold
  deriving DecidableEq, Repr

/-- `ReasonCode`, in declared order. -/
inductive ReasonCode where
  | staleObservation
  | clockRegression
  | epochRegression
  | tokenMappingMissing
  | bookGap
  | bookExcluded
  | bookStale
  | bookThin
  | levelCountLow
  | legSkew
  | boundaryZone
  | legOutOfZone
  | twoSidedZoneExit
  | tickRegimeChanged
  | phaseTransition
  | marketStatusUnknown
  | marketHalted
  | marketClosed
  | streamDegraded
  | projectionStale
  | eventCooldown
  | eventRefWarmup
  | txlineMissing
  | txlineStale
  | txlineSuspended
  | basisWarmup
  | prematchBasisExceedsSpread
  | residualPullAsk
  | residualPullBid
  | residualExtreme
  | inventoryReduce
  | reduceConflict
  | holdUnchanged
  | planFrozenPendingReconcile
  | cancelExposureFirst
  deriving DecidableEq, Repr

/-- `ProofStatus`. -/
inductive ProofStatus where
  | proven
  | boundary
  | absent
  | error
  | unavailableNoMessageId
  deriving DecidableEq, Repr

/-- The physical side of an order: `Literal["bid", "ask"]`. -/
inductive Side where
  | bid
  | ask
  deriving DecidableEq, Repr

/-- `NeutralIntent.leg_role`. -/
inductive LegRole where
  | bid
  | ask
  | reduce
  deriving DecidableEq, Repr

/-- A side as a leg's role. -/
def Side.role : Side → LegRole
  | .bid => .bid
  | .ask => .ask

/-- The other side. -/
def Side.opposite : Side → Side
  | .bid => .ask
  | .ask => .bid

theorem Side.role_injective : Function.Injective Side.role := by
  intro a b h
  cases a <;> cases b <;> simp_all [Side.role]

@[simp] theorem Side.role_inj {a b : Side} : a.role = b.role ↔ a = b := Side.role_injective.eq_iff

/-! ## The observation -/

/-- `GuardFairValue`: the optional TxLINE leg. -/
structure GuardFairValue where
  fv : ℚ
  fvSourceTs : ℤ
  fvRecvTs : ℤ
  fvSourceEpoch : ℤ
  messageId : Option String
  proofStatus : ProofStatus
  fv_mem : 0 ≤ fv ∧ fv ≤ 1 := by decide +kernel
  proof_honest : messageId = none → proofStatus = .unavailableNoMessageId := by decide +kernel
  deriving DecidableEq

/-- `RestingOrderView`. -/
structure RestingOrderView where
  clientOrderId : String
  side : Side
  price : ℚ
  size : ℚ
  price_mem : 0 ≤ price ∧ price ≤ 1 := by decide +kernel
  deriving DecidableEq

/-- `InventoryProjection`. -/
structure InventoryProjection where
  netPosition : ℚ
  resting : List RestingOrderView
  projectionAsOfTs : ℤ
  fresh : Bool
  deriving DecidableEq

/-- `StrategyObservation`: raw venue facts only. -/
structure StrategyObservation where
  -- (a) identity
  fixtureId : ℤ
  marketRef : String
  side : String
  tokenId : String
  venueMarketRef : String
  tickSize : ℚ
  -- (b) ordering and source epoch
  observationSequence : ℤ
  bookSourceEpoch : ℤ
  -- (c) venue top of book
  bid : Option ℚ
  ask : Option ℚ
  bidSize : Option ℚ
  askSize : Option ℚ
  bookStatus : BookStatus
  statusReason : Option String
  bookRecvTs : ℤ
  levelCountInBand : ℤ
  tickRegimeChanged : Bool
  -- (d) universal match-state leg, and the guard's optional one
  phase : ℤ
  suspended : Bool
  matchStateRecvTs : ℤ
  guardFv : Option GuardFairValue := none
  -- (e) market status
  marketStatus : MarketStatus
  marketStatusRecvTs : Option ℤ
  marketStatusEpoch : Option ℤ
  -- (f) stream health
  orderStreamOk : Bool
  projectionFresh : Bool
  -- (g) inventory projection
  inventory : InventoryProjection
  -- (h) the clock the decision is evaluated at
  asOfTs : ℤ
  tickSize_pos : 0 < tickSize := by decide +kernel
  phase_binary : phase = 0 ∨ phase = 1 := by decide +kernel
  statusRecvTs_iff : marketStatusRecvTs = none ↔ marketStatus = .unknown := by decide +kernel
  statusEpoch_iff : marketStatusEpoch = none ↔ marketStatus = .unknown := by decide +kernel
  bookRecvTs_le : bookRecvTs ≤ asOfTs := by decide +kernel
  matchStateRecvTs_le : matchStateRecvTs ≤ asOfTs := by decide +kernel
  statusRecvTs_le : ∀ ts ∈ marketStatusRecvTs, ts ≤ asOfTs := by decide +kernel
  fvRecvTs_le : ∀ fv ∈ guardFv, fv.fvRecvTs ≤ asOfTs := by decide +kernel
  deriving DecidableEq

/-! ## The state -/

/-- `GuardStateWatermark`. -/
structure GuardStateWatermark where
  fvSourceEpoch : ℤ
  deriving DecidableEq, Repr

theorem unset_pair : (none : Option ℚ) = none ↔ (none : Option ℤ) = none := by simp

/-- `StrategyState`: `StrategyState()` is `{}`. -/
structure StrategyState where
  -- ordering / epoch / clock watermark
  lastObservationSequence : Option ℤ := none
  lastBookSourceEpoch : Option ℤ := none
  lastAsOfTs : Option ℤ := none
  lastMarketStatusEpoch : Option ℤ := none
  lastMarketStatusRecvTs : Option ℤ := none
  guardWatermark : Option GuardStateWatermark := none
  lastPhase : Option ℤ := none
  lastSuspended : Option Bool := none
  lastBookInGap : Option Bool := none
  -- event smoother and rolling references
  smootherMid : Option ℚ := none
  smootherMidTs : Option ℤ := none
  spreadRefSamples : List ℚ := []
  depthRefSamples : List ℚ := []
  -- basis
  basisSamples : List (ℤ × ℚ) := []
  basisEwmaValue : Option ℚ := none
  basisEwmaTs : Option ℤ := none
  basisSampleCount : ℕ := 0
  -- cooldown deadline
  eventCooldownUntilTs : Option ℤ := none
  ewmaAccumulator_pair : basisEwmaValue = none ↔ basisEwmaTs = none := by exact unset_pair
  deriving DecidableEq

/-! ## The decision -/

/-- `NeutralIntent`: side and price only, never a size. -/
structure NeutralIntent where
  kind : NeutralIntentKind
  legRole : Option LegRole
  price : Option ℚ := none
  postOnly : Bool := true
  clientOrderId : Option String := none
  replacesClientOrderId : Option String := none
  price_mem : ∀ p ∈ price, 0 ≤ p ∧ p ≤ 1 := by decide +kernel
  replacement_named : kind = .replaceQuote → ∃ old ∈ replacesClientOrderId, old ≠ "" := by decide +kernel
  other_unnamed : kind ≠ .replaceQuote → replacesClientOrderId = none := by decide +kernel
  deriving DecidableEq

/-- `_CANCEL_PHASE_KINDS`. -/
def NeutralIntentKind.isCancelPhase : NeutralIntentKind → Bool
  | .cancelAllOrders => true
  | _ => false

/-- `_PLACEMENT_PHASE_KINDS`. -/
def NeutralIntentKind.isPlacementPhase : NeutralIntentKind → Bool
  | .placeQuote | .replaceQuote => true
  | _ => false

/-- What `reject_mixed_phase_plan` lets pass: one structural phase, cancel or place. -/
def SinglePhase (plan : List NeutralIntent) : Prop :=
  ¬ ((∃ leg ∈ plan, leg.kind.isCancelPhase = true) ∧
    ∃ leg ∈ plan, leg.kind.isPlacementPhase = true)

theorem singlePhase_nil : SinglePhase [] := by
  simp [SinglePhase]

theorem singlePhase_of_placement {plan : List NeutralIntent}
    (h : ∀ leg ∈ plan, leg.kind = .placeQuote) : SinglePhase plan := by
  rintro ⟨⟨leg, hleg, hcancel⟩, -⟩
  simp [h leg hleg, NeutralIntentKind.isCancelPhase] at hcancel

/-- Legs of the same kinds are of the same phase. -/
theorem SinglePhase.map {plan : List NeutralIntent} (h : SinglePhase plan)
    {f : NeutralIntent → NeutralIntent} (hf : ∀ leg, (f leg).kind = leg.kind) :
    SinglePhase (plan.map f) := by
  simpa [SinglePhase, hf] using h

/-- `StrategyDecision`. -/
structure StrategyDecision where
  decisionId : String := ""
  kind : DecisionKind := .hold
  reasonCodes : List ReasonCode := []
  intentPlan : List NeutralIntent := []
  observationHash : String := ""
  configHash : String := ""
  priorStateHash : String := ""
  nextStateHash : String := ""
  plan_singlePhase : SinglePhase intentPlan := by exact singlePhase_nil
  deriving DecidableEq

/-- A decision's plan places a quote. -/
def StrategyDecision.Places (decision : StrategyDecision) : Prop :=
  ∃ leg ∈ decision.intentPlan, leg.kind = .placeQuote

/-- A decision's plan places a quote on a side. -/
def StrategyDecision.PlacesOn (decision : StrategyDecision) (side : Side) : Prop :=
  ∃ leg ∈ decision.intentPlan, leg.kind = .placeQuote ∧ leg.legRole = some side.role

end Veridex.MmStrategy
