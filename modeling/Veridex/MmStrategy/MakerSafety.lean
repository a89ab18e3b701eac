import Veridex.MmStrategy.QuoteGate

/-!
# Maker safety of the quote prices (`_bid_leg_price`, `_ask_leg_price`, core.py)

A leg's price is its target, rounded away from the other side of the book. The round is not the exact
one: the ratio is snapped to 9 decimals before, which may lift it over the next integer, so a bid may
end above its target. `Between` is what survives the snap. The rounded count of ticks lies between the
floor and the ceiling of the ratio, which is enough for both bounds: a touch is a whole number of ticks,
so a bid never passes the best bid, and no leg is more than one tick from its target.
-/

namespace Veridex.MmStrategy

open Veridex.Py Veridex.Lib

/-! ## The grid -/

/-- A price on the tick grid. -/
def OnGrid (tick price : ℚ) : Prop := ∃ ticks : ℤ, price = ticks * tick

/-- At most `dp` decimals. -/
def HasDecimals (dp : ℕ) (q : ℚ) : Prop := ∃ scaled : ℤ, q * 10 ^ dp = scaled

theorem HasDecimals.pyRoundTo {dp : ℕ} {tick : ℚ} (h : HasDecimals dp tick) (ticks : ℤ) :
    pyRoundTo dp (ticks * tick) = ticks * tick := by
  obtain ⟨scaled, hscaled⟩ := h
  have hproduct : ticks * tick * 10 ^ dp = ((ticks * scaled : ℤ) : ℚ) := by
    push_cast
    rw [mul_assoc, hscaled]
  exact pyRoundTo_of_decimals hproduct

/-- A whole number that rounding a ratio may give. -/
def Between (ratio : ℚ) (ticks : ℤ) : Prop := ⌊ratio⌋ ≤ ticks ∧ ticks ≤ ⌈ratio⌉

theorem between_floor (dp : ℕ) (ratio : ℚ) : Between ratio ⌊pyRoundTo dp ratio⌋ := by
  have hbelow : (⌊ratio⌋ : ℚ) ≤ pyRoundTo dp ratio := le_pyRoundTo (Int.floor_le ratio)
  have habove : pyRoundTo dp ratio ≤ (⌈ratio⌉ : ℚ) := pyRoundTo_le (Int.le_ceil ratio)
  exact ⟨Int.le_floor.mpr hbelow, Int.cast_le.mp ((Int.floor_le _).trans habove)⟩

theorem between_ceil (dp : ℕ) (ratio : ℚ) : Between ratio ⌈pyRoundTo dp ratio⌉ := by
  have hbelow : (⌊ratio⌋ : ℚ) ≤ pyRoundTo dp ratio := le_pyRoundTo (Int.floor_le ratio)
  have habove : pyRoundTo dp ratio ≤ (⌈ratio⌉ : ℚ) := pyRoundTo_le (Int.le_ceil ratio)
  exact ⟨Int.cast_le.mp (hbelow.trans (Int.le_ceil _)), Int.ceil_le.mpr habove⟩

variable {tick price : ℚ} {ticks touch : ℤ}

theorem Between.le_touch (h : Between (price / tick) ticks) (htick : 0 < tick)
    (hprice : price ≤ touch * tick) : ticks ≤ touch := by
  have hratio : price / tick ≤ touch := (div_le_iff₀ htick).mpr hprice
  exact h.2.trans (Int.ceil_le.mpr hratio)

theorem Between.touch_le (h : Between (price / tick) ticks) (htick : 0 < tick)
    (hprice : touch * tick ≤ price) : touch ≤ ticks := by
  have hratio : touch ≤ price / tick := (le_div_iff₀ htick).mpr hprice
  exact (Int.le_floor.mpr hratio).trans h.1

/-- The rounded price is at most one tick from the price. -/
theorem Between.abs_sub_le (h : Between (price / tick) ticks) (htick : 0 < tick) :
    |ticks * tick - price| ≤ tick := by
  have hbelow : price / tick - 1 < ticks :=
    (Int.sub_one_lt_floor _).trans_le (Int.cast_le.mpr h.1)
  have habove : (ticks : ℚ) < price / tick + 1 :=
    (Int.cast_le.mpr h.2).trans_lt (Int.ceil_lt_add_one _)
  have hcancel : price / tick * tick = price := div_mul_cancel₀ price htick.ne'
  have hlow := mul_lt_mul_of_pos_right hbelow htick
  have hhigh := mul_lt_mul_of_pos_right habove htick
  rw [sub_mul, hcancel, one_mul] at hlow
  rw [add_mul, hcancel, one_mul] at hhigh
  exact abs_le.mpr ⟨by linarith, by linarith⟩

/-! ## A leg -/

/-- What the leg of a side aims at: the half spread from the anchor, or the touch. -/
def target (config : StrategyConfig) (side : Side) (anchor bestBid bestAsk : ℚ) : ℚ :=
  match side with
  | .bid => min (anchor - config.halfSpread) bestBid
  | .ask => max (anchor + config.halfSpread) bestAsk

/-- A price that joins its own touch, or rests behind it. -/
def Behind (bestBid bestAsk price : ℚ) : Side → Prop
  | .bid => price ≤ bestBid
  | .ask => bestAsk ≤ price

/-- The touches of an observation lie on its grid, and do not cross. -/
structure GriddedBook (observation : StrategyObservation) : Prop where
  bid : ∀ bestBid ∈ observation.bid, OnGrid observation.tickSize bestBid
  ask : ∀ bestAsk ∈ observation.ask, OnGrid observation.tickSize bestAsk
  uncrossed : ∀ bestBid ∈ observation.bid, ∀ bestAsk ∈ observation.ask, bestBid < bestAsk

/-- A price a maker may rest at. -/
structure MakerSafe (observation : StrategyObservation) (config : StrategyConfig) (side : Side)
    (price : ℚ) : Prop where
  unit : 0 < price ∧ price < 1
  zone : config.boundaryZone.1 ≤ price ∧ price ≤ config.boundaryZone.2
  grid : OnGrid observation.tickSize price
  /-- It does not pass its touch, and is within a tick of what it aims at. -/
  touch : ∃ anchor bestBid bestAsk, venueAnchor observation config = some anchor ∧
    observation.bid = some bestBid ∧ observation.ask = some bestAsk ∧
    Behind bestBid bestAsk price side ∧
    |price - target config side anchor bestBid bestAsk| ≤ observation.tickSize

variable {observation : StrategyObservation} {config : StrategyConfig} {anchor bestBid bestAsk : ℚ}

variable (config anchor bestBid bestAsk) in
/-- The price of a leg is a whole number of ticks, one of the two around its target's ratio. -/
theorem legPrice_between (hdecimals : HasDecimals 12 tick) (side : Side) :
    ∃ ticks : ℤ, legPrice config side anchor bestBid bestAsk tick = ticks * tick ∧
      Between (target config side anchor bestBid bestAsk / tick) ticks := by
  cases side with
  | bid => exact ⟨_, hdecimals.pyRoundTo _, between_floor 9 _⟩
  | ask => exact ⟨_, hdecimals.pyRoundTo _, between_ceil 9 _⟩

theorem behind_of_between (htick : 0 < tick) (hbid : OnGrid tick bestBid)
    (hask : OnGrid tick bestAsk) {side : Side}
    (h : Between (target config side anchor bestBid bestAsk / tick) ticks) :
    Behind bestBid bestAsk (ticks * tick) side := by
  cases side with
  | bid =>
    obtain ⟨touch, rfl⟩ := hbid
    have hle : ticks ≤ touch := h.le_touch htick (min_le_right _ _)
    exact mul_le_mul_of_nonneg_right (Int.cast_le.mpr hle) htick.le
  | ask =>
    obtain ⟨touch, rfl⟩ := hask
    have hle : touch ≤ ticks := h.touch_le htick (le_max_right _ _)
    exact mul_le_mul_of_nonneg_right (Int.cast_le.mpr hle) htick.le

theorem zoneLeg_some {side : Side} {leg : QuoteLeg}
    (h : zoneLeg config side price tick = some leg) :
    leg.price = price ∧ legInZone config price tick = true := by
  unfold zoneLeg at h
  split_ifs at h with hzone
  obtain rfl := Option.some.inj h
  exact ⟨rfl, hzone⟩

/-- Each leg the quotes price is one a maker may rest. -/
theorem sideLeg_makerSafe {side : Side} {leg : QuoteLeg} (hbook : GriddedBook observation)
    (hdecimals : HasDecimals 12 observation.tickSize)
    (hanchor : venueAnchor observation config = some anchor)
    (h : sideLeg observation config anchor side = some leg) :
    leg.side = side ∧ MakerSafe observation config side leg.price := by
  refine ⟨sideLeg_side h, ?_⟩
  unfold sideLeg at h
  split at h
  · rename_i bestBid bestAsk hbid hask
    obtain ⟨hprice, hzone⟩ := zoneLeg_some h
    obtain ⟨ticks, hticks, hbetween⟩ := legPrice_between config anchor bestBid bestAsk hdecimals side
    simp only [legInZone, Bool.decide_and, Bool.and_eq_true, decide_eq_true_eq] at hzone
    have hpositive := observation.tickSize_pos
    rw [hprice]
    refine ⟨hzone.1, hzone.2.1, ⟨ticks, hticks⟩, anchor, bestBid, bestAsk, hanchor, hbid, hask, ?_, ?_⟩
    · rw [hticks]
      exact behind_of_between hpositive (hbook.bid bestBid hbid) (hbook.ask bestAsk hask) hbetween
    · rw [hticks]
      exact hbetween.abs_sub_le hpositive
  · cases h

/-! ## The plan -/

/-- A leg that places, where a maker may rest it. -/
def SafeLeg (observation : StrategyObservation) (config : StrategyConfig) (leg : NeutralIntent) :
    Prop :=
  leg.postOnly = true ∧ ∃ side price, leg.legRole = some side.role ∧ leg.price = some price ∧
    MakerSafe observation config side price

/-- A plan whose placing legs are safe, each bid below each ask. -/
structure SafePlan (observation : StrategyObservation) (config : StrategyConfig)
    (plan : List NeutralIntent) : Prop where
  legs : ∀ leg ∈ plan, leg.kind = .placeQuote → SafeLeg observation config leg
  uncrossed : ∀ bidLeg ∈ plan, ∀ askLeg ∈ plan, bidLeg.kind = .placeQuote →
    askLeg.kind = .placeQuote → bidLeg.legRole = some Side.bid.role →
    askLeg.legRole = some Side.ask.role → ∀ bid ∈ bidLeg.price, ∀ ask ∈ askLeg.price, bid < ask

theorem MakerSafe.uncrossed {bid ask : ℚ} (hbook : GriddedBook observation)
    (hbid : MakerSafe observation config .bid bid) (hask : MakerSafe observation config .ask ask) :
    bid < ask := by
  obtain ⟨_, bestBid, _, -, hbestBid, -, hbehindBid, -⟩ := hbid.touch
  obtain ⟨_, _, bestAsk, -, -, hbestAsk, hbehindAsk, -⟩ := hask.touch
  calc bid ≤ bestBid := hbehindBid
    _ < bestAsk := hbook.uncrossed bestBid hbestBid bestAsk hbestAsk
    _ ≤ ask := hbehindAsk

theorem role_injective {side other : Side} (h : side.role = other.role) : side = other := by
  cases side <;> cases other <;> first | rfl | cases h

/-- The order of the sides follows from the legs: both are held by the touches. -/
theorem safePlan_of_legs {plan : List NeutralIntent} (hbook : GriddedBook observation)
    (h : ∀ leg ∈ plan, leg.kind = .placeQuote → SafeLeg observation config leg) :
    SafePlan observation config plan := by
  refine ⟨h, fun bidLeg hbidLeg askLeg haskLeg hbidKind haskKind hbidRole haskRole bid hbid ask hask =>
    ?_⟩
  obtain ⟨-, bidSide, bidPrice, hbidSide, hbidPrice, hbidSafe⟩ := h bidLeg hbidLeg hbidKind
  obtain ⟨-, askSide, askPrice, haskSide, haskPrice, haskSafe⟩ := h askLeg haskLeg haskKind
  obtain rfl : bidSide = .bid := role_injective (Option.some.inj (hbidSide.symm.trans hbidRole))
  obtain rfl : askSide = .ask := role_injective (Option.some.inj (haskSide.symm.trans haskRole))
  obtain rfl : bidPrice = bid := Option.some.inj (hbidPrice.symm.trans hbid)
  obtain rfl : askPrice = ask := Option.some.inj (haskPrice.symm.trans hask)
  exact hbidSafe.uncrossed hbook haskSafe

theorem safeLeg_placeLeg {side : Side} {leg : QuoteLeg} (hbook : GriddedBook observation)
    (hdecimals : HasDecimals 12 observation.tickSize) (anchored : Anchored observation config anchor)
    (priced : sideLeg observation config anchor side = some leg) :
    SafeLeg observation config (placeLeg leg) := by
  obtain ⟨rfl, hsafe⟩ := sideLeg_makerSafe hbook hdecimals anchored.1 priced
  exact ⟨rfl, leg.side, leg.price, rfl, rfl, hsafe⟩

variable {halfPow : ℚ → ℚ} {base : StrategyState} {decision : StrategyDecision}

/-- Each leg of a placement is the priced leg of a side. -/
theorem Placement.safeLegs (hbook : GriddedBook observation)
    (hdecimals : HasDecimals 12 observation.tickSize)
    (h : Placement halfPow observation base config decision) :
    ∀ leg ∈ decision.intentPlan, SafeLeg observation config leg := by
  cases h with
  | reduce anchor toxic leg anchored branch guard safe priced =>
    simpa [quoteDecision] using safeLeg_placeLeg hbook hdecimals anchored priced
  | pull anchor pulled leg anchored branch guard priced =>
    simpa [quoteDecision] using safeLeg_placeLeg hbook hdecimals anchored priced
  | twoSided anchor bid ask anchored branch guard bidPriced askPriced =>
    simpa [quoteDecision] using ⟨safeLeg_placeLeg hbook hdecimals anchored bidPriced,
      safeLeg_placeLeg hbook hdecimals anchored askPriced⟩
  | clamped anchor side leg anchored branch guard priced omitted =>
    simpa [quoteDecision] using safeLeg_placeLeg hbook hdecimals anchored priced

theorem SafeLeg.stampLeg {platform : Platform} {leg : NeutralIntent}
    (h : SafeLeg observation config leg) (decisionIdentity : String) :
    SafeLeg observation config (stampLeg platform decisionIdentity leg) := by
  obtain ⟨hpost, side, price, hrole, hprice, hsafe⟩ := h
  refine ⟨?_, side, price, (stampLeg_legRole platform decisionIdentity leg).trans hrole, ?_, hsafe⟩
  · unfold MmStrategy.stampLeg
    split <;> exact hpost
  · unfold MmStrategy.stampLeg
    split <;> exact hprice

/-- **Maker safety**: over a gridded book, every leg that `decide` places is one a maker may rest. -/
theorem decide_makerSafe {platform : Platform} {sessionId : String} {state nextState : StrategyState}
    {frame : Frame} (hbook : GriddedBook frame.1) (hdecimals : HasDecimals 12 frame.1.tickSize)
    (h : DecideStep platform config sessionId state frame nextState) :
    SafePlan frame.1 config frame.2.intentPlan := by
  refine safePlan_of_legs hbook fun leg hleg hkind => ?_
  obtain ⟨-, disposition, hdisposition, hdecision⟩ := h.places ⟨leg, hleg, hkind⟩
  rw [hdecision] at hleg
  obtain ⟨raw, hraw, rfl⟩ := List.mem_map.mp hleg
  obtain habstains | hplacement := quoteDisposition_cases hdisposition
  · refine absurd ⟨raw, hraw, ?_⟩ habstains.not_places
    rwa [stampLeg_kind] at hkind
  · exact (hplacement.safeLegs hbook hdecimals raw hraw).stampLeg _

theorem fairFrame_gridded (sequence asOfTs : ℤ) : GriddedBook (fairFrame sequence asOfTs) := by
  have hbid : (fairFrame sequence asOfTs).bid = some (48 / 100) := rfl
  have hask : (fairFrame sequence asOfTs).ask = some (52 / 100) := rfl
  have htick : (fairFrame sequence asOfTs).tickSize = 1 / 100 := rfl
  constructor
  · rintro bestBid h
    obtain rfl := Option.some.inj (hbid.symm.trans h)
    exact ⟨48, by rw [htick]; norm_num⟩
  · rintro bestAsk h
    obtain rfl := Option.some.inj (hask.symm.trans h)
    exact ⟨52, by rw [htick]; norm_num⟩
  · rintro bestBid hb bestAsk ha
    obtain rfl := Option.some.inj (hbid.symm.trans hb)
    obtain rfl := Option.some.inj (hask.symm.trans ha)
    norm_num

/-- A frame over a cent grid that quotes both sides. -/
theorem decide_makerSafe_fair : ∃ (frame : Frame) (state nextState : StrategyState),
    GriddedBook frame.1 ∧ HasDecimals 12 frame.1.tickSize ∧
    DecideStep flatPlatform (promptConfig true) "" state frame nextState ∧
    frame.2.intentPlan.map NeutralIntent.kind = [.placeQuote, .placeQuote] ∧
    SafePlan frame.1 (promptConfig true) frame.2.intentPlan := by
  have hplans : (decideAll flatPlatform (promptConfig true) "" {}
      [fairFrame 0 0, fairFrame 1 1, fairFrame 2 2]).map
      (fun result => result.1.map fun decision => decision.intentPlan.map NeutralIntent.kind) =
        .ok [[], [], [.placeQuote, .placeQuote]] := by decide +kernel
  obtain ⟨frames, last, hframes, hkinds, hrun⟩ := run_of_view hplans
  obtain ⟨first, second, frame, rfl⟩ := List.length_eq_three.mp
    (by simpa using congrArg List.length hkinds)
  simp only [List.map_cons, List.map_nil, List.cons.injEq, and_true] at hkinds hframes
  have hcut : StrategyRun flatPlatform (promptConfig true) "" {} ([first, second] ++ frame :: [])
      last := hrun
  obtain ⟨state, nextState, -, hstep, -⟩ := hcut.step_at
  have hbook : GriddedBook frame.1 := by
    rw [hframes.2.2]
    exact fairFrame_gridded 2 2
  have hdecimals : HasDecimals 12 frame.1.tickSize := by
    rw [hframes.2.2]
    exact ⟨10 ^ 10, by norm_num [fairFrame, healthyFrame]⟩
  exact ⟨frame, state, nextState, hbook, hdecimals, hstep, hkinds.2.2,
    decide_makerSafe hbook hdecimals hstep⟩

end Veridex.MmStrategy
