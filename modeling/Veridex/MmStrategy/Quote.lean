import Veridex.MmStrategy.Training

/-!
# The quote disposition (`mm_strategy/core.py`)

The venue-mid anchor, the zones, the inventory rule, the TxLINE guard and the quote math: the spine a
healthy frame goes through once no blocker stops it. A leg exists only when it passed the post-clamp,
so its price is one a `NeutralIntent` accepts.
-/

namespace Veridex.MmStrategy

open Veridex.Py Veridex.Lib

variable (halfPow : ℚ → ℚ) (observation : StrategyObservation) (base : StrategyState)
  (config : StrategyConfig)

/-! ## The anchor -/

/-- `_venue_anchor`. -/
def venueAnchor : Option ℚ :=
  if observation.bookStatus ≠ .ok then none
  else
    match mid observation, topDepth observation with
    | some mid, some depth =>
      if PyFloat.lt (.fin depth) config.minTopDepth then none
      else if observation.levelCountInBand < config.minLevelCount then none
      else some mid
    | _, _ => none

/-- `_no_anchor_reason`. -/
def noAnchorReason : ReasonCode :=
  let thin : Bool :=
    match mid observation, topDepth observation with
    | some _, some depth => PyFloat.lt (.fin depth) config.minTopDepth
    | _, _ => true
  if observation.bookStatus ≠ .ok ∨ thin = true then .bookThin else .levelCountLow

/-! ## Guard and inventory sides -/

/-- `_basis_is_warm`. -/
def basisIsWarm : Bool := config.basisMinSamples ≤ base.basisSampleCount

/-- `_reducing_leg`. -/
def reducingLeg (netPosition : ℚ) : Side := if 0 < netPosition then .ask else .bid

/-- `_guard_residual`. -/
def guardResidual (anchor : ℚ) : Except PyExc (Option ℚ) :=
  if !config.guardEnabled then .ok none
  else if (guardFvBlockReason observation config).isSome then .ok none
  else if !basisIsWarm base config then .ok none
  else
    match observation.guardFv with
    | none => .ok none
    | some guardFv => do
      let estimate ← basisFromState halfPow base config
      return some (residual (guardFv.fv - anchor) estimate)

/-- `_residual_side`. -/
def residualSide (residual : ℚ) : Option Side :=
  if config.residualBand.lt (.fin residual) then some .ask
  else if PyFloat.lt (.fin residual) config.residualBand.neg then some .bid
  else none

/-- `_toxic_leg`. -/
def toxicLeg (anchor : ℚ) : Except PyExc (Option Side) := do
  let residual ← guardResidual halfPow observation base config anchor
  return residual.bind (residualSide config)

/-! ## Legs -/

/-- `_bid_leg_price`. -/
def bidLegPrice (anchor bestBid tick : ℚ) : ℚ :=
  floorToTick (min (anchor - config.halfSpread) bestBid) tick

/-- `_ask_leg_price`. -/
def askLegPrice (anchor bestAsk tick : ℚ) : ℚ :=
  ceilToTick (max (anchor + config.halfSpread) bestAsk) tick

/-- `_on_tick`. -/
def onTick (price tick : ℚ) : Bool :=
  let ratio := price / tick
  |ratio - pyRound ratio| ≤ 1 / 10 ^ 9

/-- `_leg_in_zone`. -/
def legInZone (price tick : ℚ) : Bool :=
  (0 < price ∧ price < 1) ∧ (config.boundaryZone.1 ≤ price ∧ price ≤ config.boundaryZone.2) ∧
    onTick price tick

/-- A leg with a price the intent's validator accepts. -/
structure QuoteLeg where
  side : Side
  price : ℚ
  price_mem : 0 ≤ price ∧ price ≤ 1

/-- `_place_leg`. -/
def placeLeg (leg : QuoteLeg) : NeutralIntent where
  kind := .placeQuote
  legRole := some leg.side.role
  price := some leg.price
  postOnly := true
  price_mem := by simpa using leg.price_mem

theorem legInZone_mem {config : StrategyConfig} {price tick : ℚ}
    (h : legInZone config price tick = true) : 0 ≤ price ∧ price ≤ 1 := by
  simp only [legInZone, Bool.decide_and, Bool.and_eq_true, decide_eq_true_eq] at h
  exact ⟨h.1.1.le, h.1.2.le⟩

/-- The leg of a price, where it is in zone. -/
def zoneLeg (side : Side) (price tick : ℚ) : Option QuoteLeg :=
  if h : legInZone config price tick = true then some ⟨side, price, legInZone_mem h⟩ else none

/-- The price of a side's leg. -/
def legPrice (side : Side) (anchor bestBid bestAsk tick : ℚ) : ℚ :=
  match side with
  | .bid => bidLegPrice config anchor bestBid tick
  | .ask => askLegPrice config anchor bestAsk tick

/-- A decision that places legs. -/
def quoteDecision (kind : DecisionKind) (reasonCodes : List ReasonCode) (legs : List QuoteLeg) :
    StrategyDecision where
  kind := kind
  reasonCodes := reasonCodes
  intentPlan := legs.map placeLeg
  plan_singlePhase := singlePhase_of_placement fun leg hleg => by
    obtain ⟨quoteLeg, -, rfl⟩ := List.mem_map.mp hleg
    rfl

/-! ## The dispositions -/

/-- One leg, priced and clamped: what `_inventory_reduce` and `_residual_pull_quote` end with. -/
def oneLegQuote (anchor : ℚ) (side : Side) (kind : DecisionKind) (reason : ReasonCode) :
    StrategyDecision :=
  match observation.bid, observation.ask with
  | some bestBid, some bestAsk =>
    let tick := observation.tickSize
    match zoneLeg config side (legPrice config side anchor bestBid bestAsk tick) tick with
    | none => decideKind .noQuote [.legOutOfZone]
    | some leg => quoteDecision kind [reason] [leg]
  | _, _ => decideKind .noQuote [noAnchorReason observation config]

/-- `_inventory_reduce`. -/
def inventoryReduce (anchor netPosition : ℚ) : Except PyExc StrategyDecision := do
  let reducing := reducingLeg netPosition
  let toxic ← toxicLeg halfPow observation base config anchor
  if some reducing = toxic then return decideKind .noQuote [.reduceConflict]
  else return oneLegQuote observation config anchor reducing .oneSidedReduce .inventoryReduce

/-- `_two_sided_quote`. -/
def twoSidedQuote (anchor : ℚ) : StrategyDecision :=
  match observation.bid, observation.ask with
  | some bestBid, some bestAsk =>
    let tick := observation.tickSize
    let bidLeg := zoneLeg config .bid (bidLegPrice config anchor bestBid tick) tick
    let askLeg := zoneLeg config .ask (askLegPrice config anchor bestAsk tick) tick
    match bidLeg, askLeg with
    | some bid, some ask => quoteDecision .quoteTwoSided [] [bid, ask]
    | some leg, none | none, some leg => quoteDecision .quoteOneSided [.legOutOfZone] [leg]
    | none, none => decideKind .noQuote [.legOutOfZone]
  | _, _ => decideKind .noQuote [noAnchorReason observation config]

/-- `_residual_pull_quote`. -/
def residualPullQuote (anchor : ℚ) (toxic : Side) : StrategyDecision :=
  match toxic with
  | .ask => oneLegQuote observation config anchor .bid .quoteOneSided .residualPullAsk
  | .bid => oneLegQuote observation config anchor .ask .quoteOneSided .residualPullBid

/-- The pre-match basis gate: the basis is at least as wide as the venue's own spread. -/
def prematchBasisExceedsSpread : Except PyExc Bool :=
  if observation.phase = 0 then
    match spread observation with
    | none => .ok false
    | some spread => do
      let estimate ← basisFromState halfPow base config
      return spread ≤ |estimate|
  else .ok false

/-- The guard slot of `_quote_disposition`, with the basis warm. -/
def guardedQuote (anchor : ℚ) : Except PyExc StrategyDecision :=
  match guardFvBlockReason observation config with
  | some fvBlock => .ok (decideKind .noQuote [fvBlock])
  | none => do
    if ← prematchBasisExceedsSpread halfPow observation base config then
      return decideKind .noQuote [.prematchBasisExceedsSpread]
    else
      match ← guardResidual halfPow observation base config anchor with
      | none => return twoSidedQuote observation config anchor
      | some residual =>
        if (config.extremeMultiple.mul config.residualBand).le (.fin |residual|) then
          return decideKind .noQuote [.residualExtreme]
        else
          match residualSide config residual with
          | some side => return residualPullQuote observation config anchor side
          | none => return twoSidedQuote observation config anchor

/-- `_quote_disposition`. -/
def quoteDisposition : Except PyExc StrategyDecision :=
  match venueAnchor observation config with
  | none => .ok (decideKind .noQuote [noAnchorReason observation config])
  | some anchor =>
    let netPosition := observation.inventory.netPosition
    if ¬ (config.boundaryZone.1 ≤ anchor ∧ anchor ≤ config.boundaryZone.2) then
      .ok (decideKind .noQuote [.boundaryZone])
    else if config.inventorySoftLimit.le (.fin |netPosition|) then
      inventoryReduce halfPow observation base config anchor netPosition
    else if ¬ (config.twoSidedBand.1 ≤ anchor ∧ anchor ≤ config.twoSidedBand.2) then
      if netPosition ≠ 0 then inventoryReduce halfPow observation base config anchor netPosition
      else .ok (decideKind .noQuote [.twoSidedZoneExit])
    else if config.guardEnabled && basisIsWarm base config then
      guardedQuote halfPow observation base config anchor
    else .ok (twoSidedQuote observation config anchor)

/-! ## When they return -/

section Returns

variable {halfPow observation base config} {anchor : ℚ}

theorem guardResidual_ok (h : basisIsWarm base config = true → HasBasis base config) :
    ∃ residual, guardResidual halfPow observation base config anchor = .ok residual := by
  unfold guardResidual
  split_ifs with hoff hblock hcold
  · exact ⟨_, rfl⟩
  · exact ⟨_, rfl⟩
  · exact ⟨_, rfl⟩
  · cases observation.guardFv with
    | none => exact ⟨_, rfl⟩
    | some guardFv =>
      have hwarm : basisIsWarm base config = true := by simpa using hcold
      exact exists_bind_ok (basisFromState_ok halfPow (h hwarm)) fun _ _ => ⟨_, rfl⟩

theorem inventoryReduce_ok (netPosition : ℚ)
    (h : basisIsWarm base config = true → HasBasis base config) :
    ∃ decision, inventoryReduce halfPow observation base config anchor netPosition =
      .ok decision := by
  have htoxic : ∃ toxic, toxicLeg halfPow observation base config anchor = .ok toxic :=
    exists_bind_ok (guardResidual_ok h) fun _ _ => ⟨_, rfl⟩
  unfold inventoryReduce
  refine exists_bind_ok htoxic fun toxic _ => ?_
  split_ifs <;> exact ⟨_, rfl⟩

theorem prematchBasisExceedsSpread_ok (h : HasBasis base config) :
    ∃ exceeds, prematchBasisExceedsSpread halfPow observation base config = .ok exceeds := by
  unfold prematchBasisExceedsSpread
  split_ifs with hphase
  · cases spread observation with
    | none => exact ⟨_, rfl⟩
    | some spread => exact exists_bind_ok (basisFromState_ok halfPow h) fun _ _ => ⟨_, rfl⟩
  · exact ⟨_, rfl⟩

theorem guardedQuote_ok (h : HasBasis base config) :
    ∃ decision, guardedQuote halfPow observation base config anchor = .ok decision := by
  unfold guardedQuote
  cases guardFvBlockReason observation config with
  | some fvBlock => exact ⟨_, rfl⟩
  | none =>
    refine exists_bind_ok (prematchBasisExceedsSpread_ok h) fun exceeds _ => ?_
    by_cases hexceeds : exceeds = true
    · rw [if_pos hexceeds]
      exact ⟨_, rfl⟩
    · rw [if_neg hexceeds]
      refine exists_bind_ok (guardResidual_ok fun _ => h) fun residual _ => ?_
      cases residual with
      | none => exact ⟨_, rfl⟩
      | some residual =>
        dsimp only
        split_ifs
        · exact ⟨_, rfl⟩
        · cases residualSide config residual <;> exact ⟨_, rfl⟩

/-- The disposition returns where a warm basis has its data. -/
theorem quoteDisposition_ok (h : basisIsWarm base config = true → HasBasis base config) :
    ∃ decision, quoteDisposition halfPow observation base config = .ok decision := by
  unfold quoteDisposition
  cases venueAnchor observation config with
  | none => exact ⟨_, rfl⟩
  | some anchor =>
    dsimp only
    split_ifs with hboundary hlimit hband hguard hflat
    · exact inventoryReduce_ok _ h
    · rw [Bool.and_eq_true] at hguard
      exact guardedQuote_ok (h hguard.2)
    · exact ⟨_, rfl⟩
    · exact inventoryReduce_ok _ h
    · exact ⟨_, rfl⟩
    · exact ⟨_, rfl⟩

end Returns

/-! ## Churn suppression -/

/-- A resting order the desired leg would re-emit. -/
def restsAs (leg : NeutralIntent) (price : ℚ) (order : RestingOrderView) : Bool :=
  some order.side.role == leg.legRole && PyFloat.le (.fin |price - order.price|) config.priceEpsilon

/-- The pairing loop of `_target_is_unchanged`: each leg takes the first order it matches. -/
def pairedWith : List NeutralIntent → List RestingOrderView → Bool
  | [], _ => true
  | leg :: legs, unmatched =>
    match leg.price with
    | none => false
    | some price =>
      unmatched.any (restsAs config leg price) &&
        pairedWith legs (unmatched.eraseP (restsAs config leg price))

/-- `_target_is_unchanged`. -/
def targetIsUnchanged (decision : StrategyDecision) : Bool :=
  let desired := decision.intentPlan
  let resting := observation.inventory.resting
  if desired.isEmpty then false
  else if desired.length ≠ resting.length then false
  else pairedWith config desired resting

end Veridex.MmStrategy
