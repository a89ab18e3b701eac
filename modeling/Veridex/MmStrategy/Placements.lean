import Veridex.MmStrategy.Quote

/-!
# When the disposition places

`Placement` says which legs the spine of `_quote_disposition` places, on what conditions: the reducing
leg of the inventory rule, the leg that survives a residual pull, or the legs of the two-sided quote
that are in zone. Every disposition is one of these or places nothing (`quoteDisposition_cases`), and
each of them is the disposition where its conditions hold (`Placement.disposition`).
-/

namespace Veridex.MmStrategy

open Veridex.Py Veridex.Lib

variable (halfPow : ℚ → ℚ) (observation : StrategyObservation) (base : StrategyState)
  (config : StrategyConfig)

/-! ## The conditions -/

/-- The anchor is admissible, and inside the boundary zone. -/
def Anchored (anchor : ℚ) : Prop :=
  venueAnchor observation config = some anchor ∧
    config.boundaryZone.1 ≤ anchor ∧ anchor ≤ config.boundaryZone.2

/-- The anchor is inside the two-sided band. -/
def InBand (anchor : ℚ) : Prop :=
  config.twoSidedBand.1 ≤ anchor ∧ anchor ≤ config.twoSidedBand.2

/-- The inventory rule pre-empts: past the soft limit, or not flat outside the band. -/
def InventoryBranch (anchor : ℚ) : Prop :=
  config.inventorySoftLimit.le (.fin |observation.inventory.netPosition|) = true ∨
    (¬ InBand config anchor ∧ observation.inventory.netPosition ≠ 0)

/-- Neither the inventory rule nor the band stops the anchor. -/
def QuoteBranch (anchor : ℚ) : Prop :=
  config.inventorySoftLimit.le (.fin |observation.inventory.netPosition|) = false ∧
    InBand config anchor

/-- The leg of a side, where both touches are there and its price is in zone. -/
def sideLeg (anchor : ℚ) (side : Side) : Option QuoteLeg :=
  match observation.bid, observation.ask with
  | some bestBid, some bestAsk =>
    let tick := observation.tickSize
    zoneLeg config side (legPrice config side anchor bestBid bestAsk tick) tick
  | _, _ => none

/-- The guard lets the frame quote, and pulls `pulled`. With the guard off or the basis cold it is
inert. -/
inductive GuardAllows (anchor : ℚ) : Option Side → Prop
  | inert (h : (config.guardEnabled && basisIsWarm base config) = false) : GuardAllows anchor none
  | speaks (residual : ℚ) (warm : (config.guardEnabled && basisIsWarm base config) = true)
      (present : guardFvBlockReason observation config = none)
      (prematch : prematchBasisExceedsSpread halfPow observation base config = .ok false)
      (spoken : guardResidual halfPow observation base config anchor = .ok (some residual))
      (moderate : (config.extremeMultiple.mul config.residualBand).le (.fin |residual|) = false) :
      GuardAllows anchor (residualSide config residual)

/-- The reason of a residual pull. -/
def pullReason : Side → ReasonCode
  | .ask => .residualPullAsk
  | .bid => .residualPullBid

/-- The spine places. -/
inductive Placement : StrategyDecision → Prop
  | reduce (anchor : ℚ) (toxic : Option Side) (leg : QuoteLeg)
      (anchored : Anchored observation config anchor)
      (branch : InventoryBranch observation config anchor)
      (guard : toxicLeg halfPow observation base config anchor = .ok toxic)
      (safe : some (reducingLeg observation.inventory.netPosition) ≠ toxic)
      (priced : sideLeg observation config anchor
        (reducingLeg observation.inventory.netPosition) = some leg) :
      Placement (quoteDecision .oneSidedReduce [.inventoryReduce] [leg])
  | pull (anchor : ℚ) (pulled : Side) (leg : QuoteLeg)
      (anchored : Anchored observation config anchor)
      (branch : QuoteBranch observation config anchor)
      (guard : GuardAllows halfPow observation base config anchor (some pulled))
      (priced : sideLeg observation config anchor pulled.opposite = some leg) :
      Placement (quoteDecision .quoteOneSided [pullReason pulled] [leg])
  | twoSided (anchor : ℚ) (bid ask : QuoteLeg) (anchored : Anchored observation config anchor)
      (branch : QuoteBranch observation config anchor)
      (guard : GuardAllows halfPow observation base config anchor none)
      (bidPriced : sideLeg observation config anchor .bid = some bid)
      (askPriced : sideLeg observation config anchor .ask = some ask) :
      Placement (quoteDecision .quoteTwoSided [] [bid, ask])
  | clamped (anchor : ℚ) (side : Side) (leg : QuoteLeg)
      (anchored : Anchored observation config anchor)
      (branch : QuoteBranch observation config anchor)
      (guard : GuardAllows halfPow observation base config anchor none)
      (priced : sideLeg observation config anchor side = some leg)
      (omitted : sideLeg observation config anchor side.opposite = none) :
      Placement (quoteDecision .quoteOneSided [.legOutOfZone] [leg])

variable {halfPow observation base config} {anchor : ℚ} {decision : StrategyDecision}

/-! ## The quotes -/

/-- A decision without legs, whatever its reason. -/
def Abstains (decision : StrategyDecision) : Prop :=
  ∃ reason, decision = decideKind .noQuote [reason]

theorem Abstains.not_places (h : Abstains decision) : ¬ decision.Places := by
  obtain ⟨reason, rfl⟩ := h
  simp [StrategyDecision.Places, decideKind]

theorem placesOn_quoteDecision {kind : DecisionKind} {reasons : List ReasonCode}
    {legs : List QuoteLeg} {side : Side} :
    (quoteDecision kind reasons legs).PlacesOn side ↔ ∃ leg ∈ legs, leg.side = side := by
  simp [StrategyDecision.PlacesOn, quoteDecision, placeLeg]

/-- An admissible anchor is the mid of an `ok` book that reaches its floors. -/
theorem venueAnchor_some (h : venueAnchor observation config = some anchor) :
    mid observation = some anchor ∧ ∃ depth, topDepth observation = some depth ∧
      config.minTopDepth.le (.fin depth) = true ∧
      config.minLevelCount ≤ observation.levelCountInBand := by
  unfold venueAnchor at h
  by_cases hbook : observation.bookStatus ≠ .ok
  · rw [if_pos hbook] at h
    cases h
  · rw [if_neg hbook] at h
    split at h
    · rename_i venueMid depth hmid hdepth
      split_ifs at h with hthin hlevels
      obtain rfl := Option.some.inj h
      have hnan := PyFloat.ne_nan_of_lt config.minTopDepth_pos
      exact ⟨hmid, depth, hdepth, PyFloat.le_of_not_lt hnan (by simpa using hthin), not_lt.mp hlevels⟩
    · cases h

theorem zoneLeg_side {side : Side} {price tick : ℚ} {leg : QuoteLeg}
    (h : zoneLeg config side price tick = some leg) : leg.side = side := by
  unfold zoneLeg at h
  split_ifs at h
  obtain rfl := Option.some.inj h
  rfl

theorem sideLeg_side {side : Side} {leg : QuoteLeg}
    (h : sideLeg observation config anchor side = some leg) : leg.side = side := by
  unfold sideLeg at h
  split at h
  · exact zoneLeg_side h
  · cases h

theorem oneLegQuote_some {side : Side} {leg : QuoteLeg} (kind : DecisionKind) (reason : ReasonCode)
    (h : sideLeg observation config anchor side = some leg) :
    oneLegQuote observation config anchor side kind reason = quoteDecision kind [reason] [leg] := by
  unfold sideLeg at h
  unfold oneLegQuote
  cases hbid : observation.bid with
  | none => simp [hbid] at h
  | some bestBid =>
    cases hask : observation.ask with
    | none => simp [hbid, hask] at h
    | some bestAsk =>
      simp only [hbid, hask] at h
      simp only [h]

theorem oneLegQuote_none {side : Side} (kind : DecisionKind) (reason : ReasonCode)
    (h : sideLeg observation config anchor side = none) :
    Abstains (oneLegQuote observation config anchor side kind reason) := by
  unfold sideLeg at h
  unfold oneLegQuote
  cases hbid : observation.bid with
  | none => exact ⟨_, rfl⟩
  | some bestBid =>
    cases hask : observation.ask with
    | none => exact ⟨_, rfl⟩
    | some bestAsk =>
      simp only [hbid, hask] at h
      simp only [h]
      exact ⟨_, rfl⟩

/-- What the two-sided quote does with the legs in zone. -/
theorem twoSidedQuote_eq : twoSidedQuote observation config anchor =
    match sideLeg observation config anchor .bid, sideLeg observation config anchor .ask with
    | some bid, some ask => quoteDecision .quoteTwoSided [] [bid, ask]
    | some leg, none | none, some leg => quoteDecision .quoteOneSided [.legOutOfZone] [leg]
    | none, none => twoSidedQuote observation config anchor := by
  unfold sideLeg twoSidedQuote
  cases observation.bid with
  | none => rfl
  | some bestBid =>
    cases observation.ask with
    | none => rfl
    | some bestAsk =>
      dsimp only [legPrice]
      cases zoneLeg config .bid (bidLegPrice config anchor bestBid observation.tickSize)
          observation.tickSize <;>
        cases zoneLeg config .ask (askLegPrice config anchor bestAsk observation.tickSize)
          observation.tickSize <;> rfl

theorem twoSidedQuote_none (hbid : sideLeg observation config anchor .bid = none)
    (hask : sideLeg observation config anchor .ask = none) :
    Abstains (twoSidedQuote observation config anchor) := by
  unfold sideLeg at hbid hask
  unfold twoSidedQuote
  cases hbidTouch : observation.bid with
  | none => exact ⟨_, rfl⟩
  | some bestBid =>
    cases haskTouch : observation.ask with
    | none => exact ⟨_, rfl⟩
    | some bestAsk =>
      simp only [hbidTouch, haskTouch, legPrice] at hbid hask
      simp only [hbid, hask]
      exact ⟨_, rfl⟩

/-- The two-sided quote places the legs in zone, or nothing. -/
theorem twoSidedQuote_cases (anchored : Anchored observation config anchor)
    (branch : QuoteBranch observation config anchor)
    (guard : GuardAllows halfPow observation base config anchor none) :
    Abstains (twoSidedQuote observation config anchor) ∨
      Placement halfPow observation base config (twoSidedQuote observation config anchor) := by
  cases hbid : sideLeg observation config anchor .bid with
  | none =>
    cases hask : sideLeg observation config anchor .ask with
    | none => exact .inl (twoSidedQuote_none hbid hask)
    | some ask =>
      rw [twoSidedQuote_eq, hbid, hask]
      exact .inr (.clamped anchor .ask ask anchored branch guard hask hbid)
  | some bid =>
    cases hask : sideLeg observation config anchor .ask with
    | none =>
      rw [twoSidedQuote_eq, hbid, hask]
      exact .inr (.clamped anchor .bid bid anchored branch guard hbid hask)
    | some ask =>
      rw [twoSidedQuote_eq, hbid, hask]
      exact .inr (.twoSided anchor bid ask anchored branch guard hbid hask)

theorem residualPullQuote_some {pulled : Side} {leg : QuoteLeg}
    (h : sideLeg observation config anchor pulled.opposite = some leg) :
    residualPullQuote observation config anchor pulled =
      quoteDecision .quoteOneSided [pullReason pulled] [leg] := by
  cases pulled <;> exact oneLegQuote_some _ _ h

theorem residualPullQuote_none {pulled : Side}
    (h : sideLeg observation config anchor pulled.opposite = none) :
    Abstains (residualPullQuote observation config anchor pulled) := by
  cases pulled <;> exact oneLegQuote_none _ _ h

/-! ## The spine -/

theorem inventoryReduce_cases (anchored : Anchored observation config anchor)
    (branch : InventoryBranch observation config anchor)
    (h : inventoryReduce halfPow observation base config anchor
      observation.inventory.netPosition = .ok decision) :
    Abstains decision ∨ Placement halfPow observation base config decision := by
  obtain ⟨toxic, htoxic, h⟩ := bind_eq_ok.mp h
  by_cases hsafe : some (reducingLeg observation.inventory.netPosition) = toxic
  · rw [if_pos hsafe] at h
    obtain rfl := Except.ok.inj h
    exact .inl ⟨_, rfl⟩
  · rw [if_neg hsafe] at h
    obtain rfl := Except.ok.inj h
    cases hleg : sideLeg observation config anchor
        (reducingLeg observation.inventory.netPosition) with
    | none => exact .inl (oneLegQuote_none _ _ hleg)
    | some leg =>
      rw [oneLegQuote_some _ _ hleg]
      exact .inr (.reduce anchor toxic leg anchored branch htoxic hsafe hleg)

/-- With the FV leg present and the basis warm, a residual is there. -/
theorem guardResidual_speaks {residual : Option ℚ}
    (hwarm : (config.guardEnabled && basisIsWarm base config) = true)
    (hpresent : guardFvBlockReason observation config = none)
    (h : guardResidual halfPow observation base config anchor = .ok residual) :
    ∃ guardFv estimate, observation.guardFv = some guardFv ∧
      fvIsStale observation config guardFv = false ∧
      basisFromState halfPow base config = .ok estimate ∧
      residual = some (guardFv.fv - anchor - estimate) := by
  rw [Bool.and_eq_true] at hwarm
  unfold guardResidual at h
  simp only [hwarm.1, hwarm.2, hpresent, Bool.not_true, Bool.false_eq_true, if_false,
    Option.isSome_none] at h
  unfold guardFvBlockReason at hpresent
  cases hfv : observation.guardFv with
  | none => simp [hfv] at hpresent
  | some guardFv =>
    rw [hfv] at h hpresent
    obtain ⟨estimate, hestimate, h⟩ := bind_eq_ok.mp h
    refine ⟨guardFv, estimate, rfl, ?_, hestimate, (Except.ok.inj h).symm⟩
    cases hstale : fvIsStale observation config guardFv with
    | false => rfl
    | true => simp [hstale] at hpresent

theorem guardedQuote_cases (anchored : Anchored observation config anchor)
    (branch : QuoteBranch observation config anchor)
    (hwarm : (config.guardEnabled && basisIsWarm base config) = true)
    (h : guardedQuote halfPow observation base config anchor = .ok decision) :
    Abstains decision ∨ Placement halfPow observation base config decision := by
  unfold guardedQuote at h
  cases hpresent : guardFvBlockReason observation config with
  | some fvBlock =>
    rw [hpresent] at h
    obtain rfl := Except.ok.inj h
    exact .inl ⟨_, rfl⟩
  | none =>
    rw [hpresent] at h
    obtain ⟨exceeds, hexceeds, h⟩ := bind_eq_ok.mp h
    cases exceeds with
    | true =>
      obtain rfl := Except.ok.inj h
      exact .inl ⟨_, rfl⟩
    | false =>
      obtain ⟨residual, hspoken, h⟩ := bind_eq_ok.mp h
      obtain ⟨guardFv, estimate, -, -, -, rfl⟩ := guardResidual_speaks hwarm hpresent hspoken
      dsimp only at h
      by_cases hextreme : (config.extremeMultiple.mul config.residualBand).le
          (.fin |guardFv.fv - anchor - estimate|) = true
      · rw [if_pos hextreme] at h
        obtain rfl := Except.ok.inj h
        exact .inl ⟨_, rfl⟩
      · rw [if_neg hextreme] at h
        have hguard := GuardAllows.speaks _ hwarm hpresent hexceeds hspoken
          (by simpa using hextreme)
        cases hside : residualSide config (guardFv.fv - anchor - estimate) with
        | none =>
          rw [hside] at h hguard
          obtain rfl := Except.ok.inj h
          exact twoSidedQuote_cases anchored branch hguard
        | some pulled =>
          rw [hside] at h hguard
          obtain rfl := Except.ok.inj h
          cases hleg : sideLeg observation config anchor pulled.opposite with
          | none => exact .inl (residualPullQuote_none hleg)
          | some leg =>
            rw [residualPullQuote_some hleg]
            exact .inr (.pull anchor pulled leg anchored branch hguard hleg)

/-- **The disposition**: nothing placed, or a placement on its conditions. -/
theorem quoteDisposition_cases
    (h : quoteDisposition halfPow observation base config = .ok decision) :
    Abstains decision ∨ Placement halfPow observation base config decision := by
  unfold quoteDisposition at h
  cases hanchor : venueAnchor observation config with
  | none =>
    rw [hanchor] at h
    obtain rfl := Except.ok.inj h
    exact .inl ⟨_, rfl⟩
  | some anchor =>
    rw [hanchor] at h
    dsimp only at h
    by_cases hboundary : config.boundaryZone.1 ≤ anchor ∧ anchor ≤ config.boundaryZone.2
    · rw [if_neg (not_not_intro hboundary)] at h
      have anchored : Anchored observation config anchor := ⟨hanchor, hboundary⟩
      by_cases hlimit :
          config.inventorySoftLimit.le (.fin |observation.inventory.netPosition|) = true
      · rw [if_pos hlimit] at h
        exact inventoryReduce_cases anchored (.inl hlimit) h
      · rw [if_neg hlimit] at h
        by_cases hband : config.twoSidedBand.1 ≤ anchor ∧ anchor ≤ config.twoSidedBand.2
        · rw [if_neg (not_not_intro hband)] at h
          have branch : QuoteBranch observation config anchor := ⟨by simpa using hlimit, hband⟩
          by_cases hguard : (config.guardEnabled && basisIsWarm base config) = true
          · rw [if_pos hguard] at h
            exact guardedQuote_cases anchored branch hguard h
          · rw [if_neg hguard] at h
            obtain rfl := Except.ok.inj h
            exact twoSidedQuote_cases anchored branch (.inert (by simpa using hguard))
        · rw [if_pos hband] at h
          by_cases hflat : observation.inventory.netPosition ≠ 0
          · rw [if_pos hflat] at h
            exact inventoryReduce_cases anchored (.inr ⟨hband, hflat⟩) h
          · rw [if_neg hflat] at h
            obtain rfl := Except.ok.inj h
            exact .inl ⟨_, rfl⟩
    · rw [if_pos hboundary] at h
      obtain rfl := Except.ok.inj h
      exact .inl ⟨_, rfl⟩

/-! ## Where the conditions hold -/

theorem inventoryReduce_of {toxic : Option Side} {leg : QuoteLeg}
    (guard : toxicLeg halfPow observation base config anchor = .ok toxic)
    (safe : some (reducingLeg observation.inventory.netPosition) ≠ toxic)
    (priced : sideLeg observation config anchor
      (reducingLeg observation.inventory.netPosition) = some leg) :
    inventoryReduce halfPow observation base config anchor observation.inventory.netPosition =
      .ok (quoteDecision .oneSidedReduce [.inventoryReduce] [leg]) := by
  refine bind_eq_ok.mpr ⟨toxic, guard, ?_⟩
  rw [if_neg safe, oneLegQuote_some _ _ priced]
  rfl

/-- The quote the guard leaves: the pull it asks for, or both sides. -/
def quoteUnder (observation : StrategyObservation) (config : StrategyConfig) (anchor : ℚ) :
    Option Side → StrategyDecision
  | some pulled => residualPullQuote observation config anchor pulled
  | none => twoSidedQuote observation config anchor

/-- A frame the guard allows to quote gets the quote it leaves. -/
theorem quoteDisposition_of_guard {pulled : Option Side}
    (anchored : Anchored observation config anchor) (branch : QuoteBranch observation config anchor)
    (guard : GuardAllows halfPow observation base config anchor pulled) :
    quoteDisposition halfPow observation base config =
      .ok (quoteUnder observation config anchor pulled) := by
  have hlimit : ¬ config.inventorySoftLimit.le
      (.fin |observation.inventory.netPosition|) = true := by
    rw [branch.1]
    exact Bool.false_ne_true
  have hband : ¬ ¬ (config.twoSidedBand.1 ≤ anchor ∧ anchor ≤ config.twoSidedBand.2) :=
    not_not_intro branch.2
  unfold quoteDisposition
  rw [anchored.1]
  dsimp only
  rw [if_neg (not_not_intro anchored.2), if_neg hlimit, if_neg hband]
  cases guard with
  | inert h =>
    rw [h, if_neg Bool.false_ne_true]
    rfl
  | speaks residual warm present prematch spoken moderate =>
    rw [if_pos warm]
    unfold guardedQuote
    rw [present]
    dsimp only
    refine bind_eq_ok.mpr ⟨false, prematch, bind_eq_ok.mpr ⟨some residual, spoken, ?_⟩⟩
    dsimp only
    rw [moderate, if_neg Bool.false_ne_true]
    cases residualSide config residual <;> rfl

/-- **The disposition**, where the conditions of a placement hold. -/
theorem Placement.disposition (h : Placement halfPow observation base config decision) :
    quoteDisposition halfPow observation base config = .ok decision := by
  cases h with
  | reduce anchor toxic leg anchored branch guard safe priced =>
    have hreduce := inventoryReduce_of guard safe priced
    unfold quoteDisposition
    rw [anchored.1]
    dsimp only
    rw [if_neg (not_not_intro anchored.2)]
    by_cases hlimit :
        config.inventorySoftLimit.le (.fin |observation.inventory.netPosition|) = true
    · rw [if_pos hlimit, hreduce]
    · obtain hover | ⟨hband, hflat⟩ := branch
      · exact absurd hover hlimit
      · have hband' : ¬ (config.twoSidedBand.1 ≤ anchor ∧ anchor ≤ config.twoSidedBand.2) := hband
        rw [if_neg hlimit, if_pos hband', if_pos hflat, hreduce]
  | pull anchor pulled leg anchored branch guard priced =>
    rw [quoteDisposition_of_guard anchored branch guard, quoteUnder, residualPullQuote_some priced]
  | twoSided anchor bid ask anchored branch guard bidPriced askPriced =>
    rw [quoteDisposition_of_guard anchored branch guard, quoteUnder, twoSidedQuote_eq, bidPriced,
      askPriced]
  | clamped anchor side leg anchored branch guard priced omitted =>
    rw [quoteDisposition_of_guard anchored branch guard, quoteUnder, twoSidedQuote_eq]
    cases side with
    | bid =>
      have hask : sideLeg observation config anchor .ask = none := omitted
      rw [priced, hask]
    | ask =>
      have hbid : sideLeg observation config anchor .bid = none := omitted
      rw [priced, hbid]

end Veridex.MmStrategy
