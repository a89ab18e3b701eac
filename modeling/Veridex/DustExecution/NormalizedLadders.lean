import Veridex.DustExecution.ComplementaryLock
import Veridex.DustExecution.Intents
import Veridex.Py.Text

/-!
# From raw orders to canonical rungs (`dust_execution/noncrossing.py`, lines 300-428)

`normalize` turns a raw BUY or SELL on a bet side into a canonical BUY rung: a SELL of one outcome
is a BUY of the other at the complement of its price. `sideToToken` is the mapping of
`venues/polymarket_resolver.py`.

The lock check of the rungs and the same-token check of the raw orders look at one book. Two legs
of a token that cross cost a dollar once the ask is a BUY of the other outcome, and the dearest
rungs of the two ladders cost no less, so the walk rejects its first slice (`crossing_locks`).
The complement of a price has to be on the tick again for that (`crossing_unnormalized`).
-/

namespace Veridex.DustExecution

open Veridex.Py Veridex.Lib Veridex.Lib.PairedWalk

/-! ## Sides and tokens -/

/-- `ResolvedMarket`, as far as the mapping reads it. -/
structure ResolvedMarket where
  tokenIdYes : String
  tokenIdNo : String
  drawMarket : Bool := false
  deriving DecidableEq, Repr

/-- `_SIDE_YES_LABELS`. -/
def sideYesLabels : List String := ["yes", "over", "home", "away"]

/-- `_SIDE_NO_LABELS`. -/
def sideNoLabels : List String := ["no", "under"]

/-- `side_to_token`. -/
def sideToToken (resolved : ResolvedMarket) (side : String) : Except PyExc String :=
  let normalized := lower (strip side)
  if normalized = "draw" then
    if resolved.drawMarket then .ok resolved.tokenIdYes
    else .error ⟨.valueError, "side 'draw' is only valid on the draw-binary market"⟩
  else if normalized ∈ sideYesLabels then .ok resolved.tokenIdYes
  else if normalized ∈ sideNoLabels then .ok resolved.tokenIdNo
  else .error ⟨.valueError, "Unknown side"⟩

/-! ## Normalizing an order -/

/-- `RawOrder`. -/
structure RawOrder where
  side : String
  action : String
  price : PyFloat
  size : PyFloat
  role : String
  deriving DecidableEq

/-- The other outcome. -/
def CanonicalOutcome.other : CanonicalOutcome → CanonicalOutcome
  | yes => no
  | no => yes

/-- `_validate_role`. -/
def validateRole (role : String) : Except PyExc LegRole :=
  if role = "MAKER" then .ok .maker
  else if role = "TAKER" then .ok .taker
  else .error ⟨.failClosed, "role must be 'MAKER' or 'TAKER' (fail-closed)"⟩

/-- The action of a raw order, once it is one of the two. -/
def orderAction (action : String) : Except PyExc Side :=
  if action = "BUY" then .ok .buy
  else if action = "SELL" then .ok .sell
  else .error ⟨.failClosed, "action must be 'BUY' or 'SELL' (fail-closed)"⟩

/-- The outcome a bet side names. -/
def outcomeOfSide (resolved : ResolvedMarket) (side : String) : Except PyExc CanonicalOutcome :=
  match sideToToken resolved side with
  | .error _ => .error ⟨.failClosed, "side has no unambiguous YES/NO token mapping (fail-closed)"⟩
  | .ok token =>
    if token = resolved.tokenIdYes then .ok .yes
    else if token = resolved.tokenIdNo then .ok .no
    else .error ⟨.failClosed, "side mapped to an unknown token (fail-closed)"⟩

/-- `_round_to_tick` of a price that may not be finite. -/
def roundPrice (price : PyFloat) (tick : ℚ) : Except PyExc ℚ :=
  match price with
  | .fin p => .ok (roundToTick p tick)
  | .nan => .error ⟨.valueError, "cannot convert float NaN to integer"⟩
  | _ => .error ⟨.exception, "cannot convert float infinity to integer"⟩

/-- The canonical BUY an action on an outcome is. -/
def canonicalBuy (action : Side) (outcome : CanonicalOutcome) (price : ℚ) : CanonicalOutcome × ℚ :=
  match action with
  | .buy => (outcome, price)
  | .sell => (outcome.other, 1 - price)

/-- The fee of one share, by the role. -/
def rungFee (snapshot : FeeSnapshot) (role : LegRole) (price : ℚ) : Except PyExc ℚ :=
  match role with
  | .maker => snapshot.makerFee 1 price
  | .taker => snapshot.takerFee 1 price

/-- `normalize`. -/
def normalize (order : RawOrder) (resolved : ResolvedMarket) (feeSnapshot : Option FeeSnapshot)
    (tickSize : PyFloat) : Except PyExc CanonicalLeg := do
  let tick ← validateTickSize tickSize
  let role ← validateRole order.role
  let action ← orderAction order.action
  let tokenOutcome ← outcomeOfSide resolved order.side
  let venueRounded ← roundPrice order.price tick
  let buy := canonicalBuy action tokenOutcome venueRounded
  let price ← validateAndRoundPrice (.fin buy.2) tick
  match feeSnapshot with
  | none => .error ⟨.failClosed, "fee snapshot is unavailable (fail-closed)"⟩
  | some snapshot => do
    let fee ← rungFee snapshot role price
    return ⟨buy.1, .fin price, order.size, role, some (.fin fee)⟩

/-- The leg of a raw order in the same-token check. -/
def ownLeg (resolved : ResolvedMarket) (order : RawOrder × LegKind) : Except PyExc OwnOrderLeg := do
  let token ← sideToToken resolved order.1.side
  return { tokenId := token, side := order.1.action, price := order.1.price, kind := order.2 }

/-- The lock check over the two ladders the normalized orders make up. -/
def lockCheckOrders (orders : List RawOrder) (resolved : ResolvedMarket)
    (feeSnapshot : Option FeeSnapshot) (tickSize : PyFloat) : Except PyExc LockVerdict := do
  let rungs ← orders.mapM (normalize · resolved feeSnapshot tickSize)
  complementaryLockCheck (rungs.filter (·.outcome = .yes)) (rungs.filter (·.outcome = .no))

/-! ## What a normalized order is -/

theorem orderAction_ok {action : String} {side : Side} :
    orderAction action = .ok side ↔ action = side.text := by
  unfold orderAction
  cases side <;> split_ifs <;> simp_all [Side.text]

theorem sideOf_ok {leg : OwnOrderLeg} {side : Side} : sideOf leg = .ok side ↔ leg.side = side.text := by
  unfold sideOf
  cases side <;> split_ifs <;> simp_all [Side.text]

theorem rungFee_ok {snapshot : FeeSnapshot} {role : LegRole} {price fee : ℚ}
    (h : rungFee snapshot role price = .ok fee) : 0 ≤ fee := by
  cases role with
  | maker => exact FeeSnapshot.makerFee_nonneg zero_le_one h
  | taker => exact FeeSnapshot.takerFee_nonneg zero_le_one h

/-- A price of the unit interval has a fee. -/
theorem exists_rungFee (snapshot : FeeSnapshot) (role : LegRole) {price : ℚ}
    (h : 0 ≤ price ∧ price ≤ 1) : ∃ fee, rungFee snapshot role price = .ok fee := by
  have htaker : ∃ fee, snapshot.takerFee 1 price = .ok fee := ⟨_, FeeSnapshot.takerFee_ok.mpr ⟨h, rfl⟩⟩
  cases role with
  | taker => exact htaker
  | maker =>
    cases hfree : snapshot.takerOnly with
    | true => exact ⟨0, by simp [rungFee, FeeSnapshot.makerFee, hfree]⟩
    | false => simpa [rungFee, FeeSnapshot.makerFee, hfree] using htaker

/-- **What `normalize` returns**, with the price and the fee it attached. -/
theorem normalize_ok {order : RawOrder} {resolved : ResolvedMarket} {snapshot : FeeSnapshot}
    {tick : ℚ} {leg : CanonicalLeg}
    (h : normalize order resolved (some snapshot) (.fin tick) = .ok leg) :
    ∃ action outcome p price fee role, order.action = Side.text action ∧
      outcomeOfSide resolved order.side = .ok outcome ∧ order.price = .fin p ∧
      validateAndRoundPrice (.fin (canonicalBuy action outcome (roundToTick p tick)).2) tick =
        .ok price ∧ 0 ≤ fee ∧
      leg = ⟨(canonicalBuy action outcome (roundToTick p tick)).1, .fin price, order.size, role,
        some (.fin fee)⟩ := by
  simp only [normalize, bind_eq_ok] at h
  obtain ⟨tick', htick, role, -, action, haction, outcome, houtcome, rounded, hrounded, price,
    hprice, fee, hfee, hleg⟩ := h
  obtain ⟨htick, -⟩ := validateTickSize_ok.mp htick
  obtain rfl : tick = tick' := PyFloat.fin.inj htick
  cases hp : order.price with
  | nan | negInf | posInf => simp [roundPrice, hp] at hrounded
  | fin p =>
    rw [hp, roundPrice, Except.ok.injEq] at hrounded
    subst hrounded
    exact ⟨action, outcome, p, price, fee, role, orderAction_ok.mp haction, houtcome, rfl, hprice,
      rungFee_ok hfee, (Except.ok.inj hleg).symm⟩

/-! ## The grid -/

section Grid

variable {tick : ℚ}

/-- Rounding is never off by more than a half. -/
theorem abs_sub_pyRound_le (q : ℚ) : |q - pyRound q| ≤ 1 / 2 := by
  have hle : (⌊q⌋ : ℚ) ≤ q := Int.floor_le q
  have hlt : q < ⌊q⌋ + 1 := Int.lt_floor_add_one q
  unfold pyRound
  simp only
  rw [abs_le]
  split_ifs <;> push_cast <;> constructor <;> linarith

/-- A price on the grid is its own rounding. -/
theorem validateAndRoundPrice_grid (htick : 0 < tick) {k : ℤ} {r : ℚ}
    (h : validateAndRoundPrice (.fin (k * tick)) tick = .ok r) : r = k * tick := by
  obtain ⟨p, hp, -, hr, -⟩ := validateAndRoundPrice_ok.mp h
  obtain rfl := PyFloat.fin.inj hp
  have hsteps : (k : ℚ) * tick / tick = k := mul_div_cancel_right₀ _ htick.ne'
  rw [hr, roundToTick, hsteps, pyRound_intCast]

/-- **A bid and an ask of one token that meet cost a dollar** once the ask is a bid on the other
outcome: on a tick wider than the tolerance, or when the grid's last step reaches a dollar. -/
theorem complement_sum {i j n : ℤ} (htick : 0 < tick) (hhalf : tick ≤ 1 / 2)
    (hmeet : j * tick ≤ i * tick + tickAtol) (hn : |(1 - j * tick) / tick - n| ≤ tickAtol)
    (hgrid : tickAtol < tick ∨ 1 ≤ pyRound (1 / tick) * tick) :
    1 - tickAtol ≤ i * tick + n * tick := by
  have hsteps : (1 - j * tick) / tick = 1 / tick - j := by
    rw [sub_div, mul_div_cancel_right₀ _ htick.ne']
  have hcancel : 1 / tick * tick = 1 := one_div_mul_cancel htick.ne'
  rw [hsteps, abs_le] at hn
  rcases hgrid with hwide | hreach
  · have hji : j ≤ i := by
      by_contra hlt
      have hstep : (i : ℚ) + 1 ≤ j := by exact_mod_cast (not_le.mp hlt : i < j)
      have := mul_le_mul_of_nonneg_right hstep htick.le
      linarith
    have hle : (j : ℚ) * tick ≤ i * tick :=
      mul_le_mul_of_nonneg_right (by exact_mod_cast hji) htick.le
    have hround := mul_le_mul_of_nonneg_right hn.2 htick.le
    have hsmall : tickAtol * tick ≤ tickAtol * 1 :=
      mul_le_mul_of_nonneg_left (by linarith) tickAtol_pos.le
    linarith
  · have hnear := abs_le.mp (abs_sub_pyRound_le (1 / tick))
    have htol : tickAtol < 1 / 2 := by norm_num [tickAtol]
    have hle : pyRound (1 / tick) - j - n < 1 := by
      have : ((pyRound (1 / tick) - j - n : ℤ) : ℚ) < 1 := by
        push_cast
        linarith
      exact_mod_cast this
    have hge : -1 < pyRound (1 / tick) - j - n := by
      have : (-1 : ℚ) < ((pyRound (1 / tick) - j - n : ℤ) : ℚ) := by
        push_cast
        linarith
      exact_mod_cast this
    obtain rfl : n = pyRound (1 / tick) - j := by omega
    push_cast
    linarith

end Grid

/-! ## The rung of an order -/

/-- A price the checks accept, inside the band. -/
def InBand (tick : ℚ) (price : PyFloat) : Prop :=
  ∃ r, validateAndRoundPrice price tick = .ok r ∧ tick ≤ r ∧ r ≤ 1 - tick

/-- What an order says and the rung it became: its price is `k` steps of the tick and the rung's
`n`. -/
structure RungOf (resolved : ResolvedMarket) (tick : ℚ) (order : RawOrder) (leg : CanonicalLeg)
    (action : Side) (outcome : CanonicalOutcome) (k n : ℤ) : Prop where
  action_text : order.action = action.text
  side_outcome : outcomeOfSide resolved order.side = .ok outcome
  raw_price : validateAndRoundPrice order.price tick = .ok (k * tick)
  outcome_eq : leg.outcome = (canonicalBuy action outcome 0).1
  steps : match action with
    | .buy => n = k
    | .sell => |(1 - k * tick) / tick - n| ≤ tickAtol
  price_eq : leg.price = .fin (n * tick)
  price_unit : 0 ≤ n * tick ∧ n * tick ≤ 1
  size_eq : leg.size = order.size
  fee_eq : ∃ fee : ℚ, leg.fee = some (.fin fee) ∧ 0 ≤ fee

section Rung

variable {resolved : ResolvedMarket} {snapshot : FeeSnapshot} {tick : ℚ} {order : RawOrder}
  {leg : CanonicalLeg}

/-- **A normalized order of the band**, step by step of its tick. -/
theorem rungOf_normalize (htick : 0 < tick) (hband : InBand tick order.price)
    (h : normalize order resolved (some snapshot) (.fin tick) = .ok leg) :
    ∃ action outcome k n, RungOf resolved tick order leg action outcome k n := by
  obtain ⟨action, outcome, p, price, fee, role, haction, houtcome, hp, hprice, hfee, rfl⟩ :=
    normalize_ok h
  obtain ⟨r, hr, hlow, hhigh⟩ := hband
  obtain ⟨p', hp', -, hgrid, -⟩ := validateAndRoundPrice_ok.mp hr
  obtain rfl : p = p' := PyFloat.fin.inj (hp.symm.trans hp')
  rw [← hgrid] at hprice ⊢
  rw [roundToTick] at hgrid
  cases action with
  | buy =>
    rw [canonicalBuy, hgrid] at hprice
    obtain rfl := validateAndRoundPrice_grid htick hprice
    rw [hgrid] at hr hlow hhigh
    exact ⟨.buy, outcome, _, _, haction, houtcome, hr, rfl, rfl, rfl, ⟨by linarith, by linarith⟩,
      rfl, fee, rfl, hfee⟩
  | sell =>
    obtain ⟨q, hq, hsteps, hround, -⟩ := validateAndRoundPrice_ok.mp hprice
    obtain rfl : 1 - r = q := PyFloat.fin.inj hq
    rw [roundToTick] at hround
    have hone : tickAtol ≤ 1 := by norm_num [tickAtol]
    have hcancel : (1 - r) / tick * tick = 1 - r := div_mul_cancel₀ _ htick.ne'
    have hup := mul_le_mul_of_nonneg_right (abs_le.mp hsteps).2 htick.le
    have hdown := mul_le_mul_of_nonneg_right (abs_le.mp hsteps).1 htick.le
    have hsmall : tickAtol * tick ≤ 1 * tick := mul_le_mul_of_nonneg_right hone htick.le
    have hunit : 0 ≤ pyRound ((1 - r) / tick) * tick ∧ pyRound ((1 - r) / tick) * tick ≤ 1 :=
      ⟨by linarith, by linarith⟩
    rw [hgrid] at hr hsteps hunit hround
    exact ⟨.sell, outcome, _, _, haction, houtcome, hr, rfl, hsteps, congrArg _ hround, hunit, rfl,
      fee, rfl, hfee⟩

/-- **On a tick that divides a dollar** every order of the band normalizes. -/
theorem exists_normalize {steps : ℤ} (htick : 0 < tick) (hhalf : tick ≤ 1 / 2)
    (hdivides : 1 / tick = steps) (hband : InBand tick order.price)
    (haction : ∃ action : Side, order.action = action.text)
    (hside : ∃ outcome, outcomeOfSide resolved order.side = .ok outcome)
    (hrole : ∃ role, validateRole order.role = .ok role) :
    ∃ leg, normalize order resolved (some snapshot) (.fin tick) = .ok leg := by
  obtain ⟨action, haction⟩ := haction
  obtain ⟨outcome, houtcome⟩ := hside
  obtain ⟨role, hrole⟩ := hrole
  obtain ⟨r, hr, hlow, hhigh⟩ := hband
  obtain ⟨p, hp, -, hgrid, hband⟩ := validateAndRoundPrice_ok.mp hr
  have hr' : r = pyRound (p / tick) * tick := hgrid
  have hdollar : 1 = steps * tick := by
    rw [← hdivides, one_div_mul_cancel htick.ne']
  -- the canonical price is on the grid: its steps, or their complement
  have hsteps : ∃ n : ℤ, (canonicalBuy action outcome r).2 = n * tick ∧ tick ≤ n * tick ∧
      n * tick ≤ 1 - tick := by
    cases action with
    | buy => exact ⟨_, hr', hr' ▸ hlow, hr' ▸ hhigh⟩
    | sell =>
      have hn : ((steps - pyRound (p / tick) : ℤ) : ℚ) * tick = 1 - r := by
        rw [hr']
        push_cast
        linarith
      exact ⟨_, hn.symm, by rw [hn]; linarith, by rw [hn]; linarith⟩
  obtain ⟨n, hn, hnlow, hnhigh⟩ := hsteps
  have hprice : validateAndRoundPrice (.fin (canonicalBuy action outcome r).2) tick =
      .ok (n * tick) := by
    have hdiv : (n : ℚ) * tick / tick = n := mul_div_cancel_right₀ _ htick.ne'
    refine validateAndRoundPrice_ok.mpr ⟨_, rfl, ?_, ?_, ?_, ?_⟩
    · rw [hn, hdiv, pyRound_intCast]
      simp [tickAtol_pos.le]
    · rw [hn, roundToTick, hdiv, pyRound_intCast]
    · linarith [tickAtol_pos]
    · linarith [tickAtol_pos]
  have hunit : 0 ≤ n * tick ∧ n * tick ≤ 1 := ⟨by linarith, by linarith⟩
  obtain ⟨fee, hfee⟩ := exists_rungFee snapshot role hunit
  refine ⟨⟨(canonicalBuy action outcome r).1, .fin (n * tick), order.size, role,
    some (.fin fee)⟩, ?_⟩
  simp only [normalize, bind_eq_ok]
  exact ⟨tick, validateTickSize_ok.mpr ⟨rfl, htick, hhalf⟩, role, hrole, action,
    orderAction_ok.mpr haction, outcome, houtcome, r, by rw [hp, roundPrice, hgrid], _, hprice, fee,
    hfee, rfl⟩

end Rung

/-! ## The crossing as a lock -/

/-- A leg the lock check accepts and walks. -/
def IsRung (leg : CanonicalLeg) : Prop :=
  ∃ r : LockRung, 0 < r.size ∧ leg = legOf leg.outcome r

/-- The rung of an order of positive size. -/
theorem RungOf.isRung {resolved : ResolvedMarket} {tick : ℚ} {order : RawOrder}
    {leg : CanonicalLeg} {action : Side} {outcome : CanonicalOutcome} {k n : ℤ}
    (h : RungOf resolved tick order leg action outcome k n)
    (hsize : ∃ size : ℚ, order.size = .fin size ∧ 0 < size) : IsRung leg := by
  obtain ⟨size, hsize, hpos⟩ := hsize
  obtain ⟨fee, hfee, hfee0⟩ := h.fee_eq
  refine ⟨⟨leg.role, n * tick, size, fee, h.price_unit.1, h.price_unit.2, hpos.le, hfee0⟩, hpos, ?_⟩
  have hprice := h.price_eq
  have hleg := h.size_eq
  cases leg
  simp_all [legOf]

/-- The rungs of one outcome are a ladder. -/
theorem exists_ladder (outcome : CanonicalOutcome) : ∀ {legs : List CanonicalLeg},
    (∀ leg ∈ legs, IsRung leg) →
      ∃ ladder : List LockRung, legs.filter (·.outcome = outcome) = ladder.map (legOf outcome) ∧
        ∀ r ∈ ladder, 0 < r.size
  | [], _ => ⟨[], rfl, by simp⟩
  | leg :: legs, h => by
    obtain ⟨ladder, hladder, hpos⟩ :=
      exists_ladder outcome fun l hl => h l (List.mem_cons_of_mem _ hl)
    by_cases hleg : leg.outcome = outcome
    · obtain ⟨r, hr, heq⟩ := h leg List.mem_cons_self
      refine ⟨r :: ladder, ?_, List.forall_mem_cons.mpr ⟨hr, hpos⟩⟩
      rw [List.filter_cons_of_pos (by simpa using hleg), hladder, List.map_cons, ← hleg, ← heq]
    · exact ⟨ladder, by rw [List.filter_cons_of_neg (by simpa using hleg), hladder], hpos⟩

/-- A leg of the outcome is on its ladder. -/
theorem exists_rung_of_mem {outcome : CanonicalOutcome} {legs : List CanonicalLeg}
    {ladder : List LockRung} {leg : CanonicalLeg} {price : ℚ}
    (hladder : legs.filter (·.outcome = outcome) = ladder.map (legOf outcome)) (hleg : leg ∈ legs)
    (houtcome : leg.outcome = outcome) (hprice : leg.price = .fin price) :
    ∃ r ∈ ladder, r.price = price := by
  have hmem : leg ∈ ladder.map (legOf outcome) :=
    hladder ▸ List.mem_filter.mpr ⟨hleg, by simpa using houtcome⟩
  obtain ⟨r, hr, rfl⟩ := List.mem_map.mp hmem
  exact ⟨r, hr, PyFloat.fin.inj hprice⟩

/-- The dearest rung of a ladder. -/
theorem exists_dearest {ladder : List LockRung} {r : LockRung} (hr : r ∈ ladder) (hpos : 0 < r.size) :
    ∃ top rest, dearestFirst ladder = top :: rest ∧ r.price ≤ top.price ∧ 0 < top.size := by
  have hmem : r ∈ dearestFirst ladder :=
    (List.mergeSort_perm _ _).mem_iff.mpr (List.mem_filter.mpr ⟨hr, by simpa using hpos⟩)
  have hsorted := (dearestFirst_arrangement ladder).2
  have hall : ∀ x ∈ dearestFirst ladder, 0 < x.size := fun x hx => by
    simpa using (List.mem_filter.mp ((List.mergeSort_perm _ _).mem_iff.mp hx)).2
  cases hd : dearestFirst ladder with
  | nil => simp [hd] at hmem
  | cons top rest =>
    rw [hd] at hmem hsorted hall
    refine ⟨top, rest, rfl, ?_, hall top List.mem_cons_self⟩
    rcases List.mem_cons.mp hmem with rfl | hrest
    · exact le_rfl
    · exact (List.pairwise_cons.mp hsorted).1 r hrest

/-- **Two rungs that cost a dollar lock the ladders**: the walk starts on rungs that cost no less. -/
theorem lockOverlap_of_pair {ys ns : List LockRung} {y n : LockRung} (hy : y ∈ ys) (hn : n ∈ ns)
    (hypos : 0 < y.size) (hnpos : 0 < n.size) (hcost : 1 - tickAtol ≤ y.price + n.price) :
    LockOverlap (dearestFirst ys) (dearestFirst ns) := by
  obtain ⟨top, rest, hys, hle, htop⟩ := exists_dearest hy hypos
  obtain ⟨top', rest', hns, hle', htop'⟩ := exists_dearest hn hnpos
  have hlock : Locks top top' := by
    have hfee := top.fee_nonneg
    have hfee' := top'.fee_nonneg
    unfold Locks
    linarith
  rw [hys, hns]
  exact overlapping_of_front htop htop' (by simpa using hlock)

section Subsumption

variable {resolved : ResolvedMarket} {snapshot : FeeSnapshot} {tick : ℚ}
  {orders : List (RawOrder × LegKind)} {legs : List OwnOrderLeg} {rungs : List CanonicalLeg}

/-- An order that both checks read: its price in the band, its size positive, its role one of the
two. -/
structure Checkable (tick : ℚ) (order : RawOrder) : Prop where
  inBand : InBand tick order.price
  size_pos : ∃ size : ℚ, order.size = .fin size ∧ 0 < size
  role_known : ∃ role, validateRole order.role = .ok role

/-- A live price of the same-token check is the price of an order. -/
theorem exists_order_of_livePrice {side : Side} {token : String} {price : ℚ}
    (hlegs : orders.mapM (ownLeg resolved) = .ok legs) (h : LivePrice tick legs side token price) :
    ∃ order ∈ orders, sideToToken resolved order.1.side = .ok token ∧
      order.1.action = side.text ∧ validateAndRoundPrice order.1.price tick = .ok price := by
  obtain ⟨leg, hleg, htoken, -, hside, hprice⟩ := h
  obtain ⟨order, horder, hown⟩ := exists_of_mem_mapM hlegs hleg
  obtain ⟨token', htoken', hleg⟩ := bind_eq_ok.mp hown
  obtain rfl := Except.ok.inj hleg
  exact ⟨order, horder, htoken ▸ htoken', sideOf_ok.mp hside, hprice⟩

/-- Two bet sides of one token have one outcome. -/
theorem outcomeOfSide_eq {side side' token : String} (h : sideToToken resolved side = .ok token)
    (h' : sideToToken resolved side' = .ok token) :
    outcomeOfSide resolved side = outcomeOfSide resolved side' := by
  simp only [outcomeOfSide, h, h']

/-- A bet side with a token has an outcome. -/
theorem exists_outcomeOfSide {side token : String} (h : sideToToken resolved side = .ok token) :
    ∃ outcome, outcomeOfSide resolved side = .ok outcome := by
  have htoken : token = resolved.tokenIdYes ∨ token = resolved.tokenIdNo := by
    unfold sideToToken at h
    simp only at h
    split_ifs at h <;> simp_all
  simp only [outcomeOfSide, h]
  rcases htoken with rfl | rfl
  · exact ⟨.yes, by simp⟩
  · by_cases hsame : resolved.tokenIdNo = resolved.tokenIdYes
    · exact ⟨.yes, by simp [hsame]⟩
    · exact ⟨.no, by simp [hsame]⟩

theorem Side.text_injective : Function.Injective Side.text := by
  intro a b h
  cases a <;> cases b <;> simp_all [Side.text]

/-- **The normalized ladders of a crossing lock.** -/
theorem lockCheck_of_crossing {token : String} {b a : ℚ} (htick : 0 < tick) (hhalf : tick ≤ 1 / 2)
    (hgrid : tickAtol < tick ∨ 1 ≤ pyRound (1 / tick) * tick)
    (hcheckable : ∀ order ∈ orders, Checkable tick order.1)
    (hlegs : orders.mapM (ownLeg resolved) = .ok legs)
    (hbuy : LivePrice tick legs .buy token b) (hsell : LivePrice tick legs .sell token a)
    (hcross : a ≤ b + tickAtol)
    (hrungs : (orders.map Prod.fst).mapM (normalize · resolved (some snapshot) (.fin tick)) =
      .ok rungs) :
    complementaryLockCheck (rungs.filter (·.outcome = .yes)) (rungs.filter (·.outcome = .no)) =
      .ok .rejected := by
  have hrung {order : RawOrder × LegKind} (horder : order ∈ orders) {leg : CanonicalLeg}
      (hleg : normalize order.1 resolved (some snapshot) (.fin tick) = .ok leg) :=
    rungOf_normalize htick (hcheckable order horder).inBand hleg
  have hall : ∀ leg ∈ rungs, IsRung leg := by
    intro leg hleg
    obtain ⟨order, hmem, hnorm⟩ := exists_of_mem_mapM hrungs hleg
    obtain ⟨order, horder, rfl⟩ := List.mem_map.mp hmem
    obtain ⟨action, outcome, k, n, h⟩ := hrung horder hnorm
    exact h.isRung (hcheckable order horder).size_pos
  obtain ⟨ys, hys, hyspos⟩ := exists_ladder .yes hall
  obtain ⟨ns, hns, hnspos⟩ := exists_ladder .no hall
  -- the bid and the ask as rungs of the two outcomes
  obtain ⟨o₁, ho₁, htoken₁, haction₁, hprice₁⟩ := exists_order_of_livePrice hlegs hbuy
  obtain ⟨o₂, ho₂, htoken₂, haction₂, hprice₂⟩ := exists_order_of_livePrice hlegs hsell
  obtain ⟨leg₁, hleg₁, hnorm₁⟩ := exists_of_mapM_ok hrungs (List.mem_map_of_mem ho₁)
  obtain ⟨leg₂, hleg₂, hnorm₂⟩ := exists_of_mapM_ok hrungs (List.mem_map_of_mem ho₂)
  obtain ⟨action₁, outcome, i, n₁, h₁⟩ := hrung ho₁ hnorm₁
  obtain ⟨action₂, outcome₂, j, n₂, h₂⟩ := hrung ho₂ hnorm₂
  obtain rfl : action₁ = .buy := Side.text_injective (h₁.action_text.symm.trans haction₁)
  obtain rfl : action₂ = .sell := Side.text_injective (h₂.action_text.symm.trans haction₂)
  obtain rfl : outcome = outcome₂ := Except.ok.inj
    (h₁.side_outcome.symm.trans ((outcomeOfSide_eq htoken₁ htoken₂).trans h₂.side_outcome))
  obtain rfl : n₁ = i := h₁.steps
  obtain rfl : b = n₁ * tick := Except.ok.inj (hprice₁.symm.trans h₁.raw_price)
  obtain rfl : a = j * tick := Except.ok.inj (hprice₂.symm.trans h₂.raw_price)
  have hcost := complement_sum htick hhalf hcross h₂.steps hgrid
  have hoverlap : LockOverlap (dearestFirst ys) (dearestFirst ns) := by
    cases outcome with
    | yes =>
      obtain ⟨y, hy, hyprice⟩ := exists_rung_of_mem hys hleg₁ h₁.outcome_eq h₁.price_eq
      obtain ⟨n, hn, hnprice⟩ := exists_rung_of_mem hns hleg₂ h₂.outcome_eq h₂.price_eq
      refine lockOverlap_of_pair hy hn (hyspos y hy) (hnspos n hn) ?_
      rwa [hyprice, hnprice]
    | no =>
      obtain ⟨y, hy, hyprice⟩ := exists_rung_of_mem hys hleg₂ h₂.outcome_eq h₂.price_eq
      obtain ⟨n, hn, hnprice⟩ := exists_rung_of_mem hns hleg₁ h₁.outcome_eq h₁.price_eq
      refine lockOverlap_of_pair hy hn (hyspos y hy) (hnspos n hn) ?_
      rwa [hyprice, hnprice, add_comm]
  rw [hys, hns]
  rcases complementaryLockCheck_eq ys ns with ⟨-, hrejected⟩ | ⟨hno, -⟩
  · exact hrejected
  · exact absurd hoverlap hno

/-- **The lock check subsumes the same-token check.** When the same-token check rejects the legs of
some orders, the lock check rejects their normalized ladders: on every tick that divides a dollar,
and on any other one that is wider than the tolerance, or whose last step reaches a dollar, once
the orders normalize. -/
theorem crossing_locks {verdict : NonCrossingVerdict}
    (hcheckable : ∀ order ∈ orders, Checkable tick order.1)
    (hlegs : orders.mapM (ownLeg resolved) = .ok legs)
    (hcheck : checkNonCrossing legs (.fin tick) = .ok verdict)
    (hrejected : verdict.admitted = false) :
    ((∃ steps : ℤ, 1 / tick = steps) →
      lockCheckOrders (orders.map Prod.fst) resolved (some snapshot) (.fin tick) =
        .ok .rejected) ∧
    ((tickAtol < tick ∨ 1 ≤ pyRound (1 / tick) * tick) →
      ∀ rungs, (orders.map Prod.fst).mapM (normalize · resolved (some snapshot) (.fin tick)) =
          .ok rungs →
        lockCheckOrders (orders.map Prod.fst) resolved (some snapshot) (.fin tick) =
          .ok .rejected) := by
  obtain ⟨tick', htick, hvalid, hverdict⟩ := checkNonCrossing_admitted_iff hcheck
  obtain ⟨hfin, htick, hhalf⟩ := validateTickSize_ok.mp htick
  obtain rfl : tick = tick' := PyFloat.fin.inj hfin
  have hnot : ¬ ∀ token b a, LivePrice tick legs .buy token b →
      LivePrice tick legs .sell token a → b + tickAtol < a := by
    rw [← hverdict, hrejected]
    simp
  simp only [not_forall, not_lt, exists_prop] at hnot
  obtain ⟨token, b, a, hbuy, hsell, hcross⟩ := hnot
  have hlock (hgrid : tickAtol < tick ∨ 1 ≤ pyRound (1 / tick) * tick) {rungs : List CanonicalLeg}
      (hrungs : (orders.map Prod.fst).mapM (normalize · resolved (some snapshot) (.fin tick)) =
        .ok rungs) :
      lockCheckOrders (orders.map Prod.fst) resolved (some snapshot) (.fin tick) =
        .ok .rejected := by
    unfold lockCheckOrders
    rw [hrungs]
    exact lockCheck_of_crossing htick hhalf hgrid hcheckable hlegs hbuy hsell hcross hrungs
  refine ⟨?_, fun hgrid rungs hrungs => hlock hgrid hrungs⟩
  rintro ⟨steps, hsteps⟩
  have hdollar : 1 ≤ pyRound (1 / tick) * tick := by
    rw [hsteps, pyRound_intCast, ← hsteps, one_div_mul_cancel htick.ne']
  have hnormalize : ∀ order ∈ orders.map Prod.fst,
      ∃ leg, normalize order resolved (some snapshot) (.fin tick) = .ok leg := by
    intro order hmem
    obtain ⟨order, horder, rfl⟩ := List.mem_map.mp hmem
    obtain ⟨leg, hleg, hown⟩ := exists_of_mapM_ok hlegs horder
    obtain ⟨token', htoken, hown⟩ := bind_eq_ok.mp hown
    obtain rfl := Except.ok.inj hown
    obtain ⟨side, hside⟩ := (hvalid _ hleg).2
    exact exists_normalize htick hhalf hsteps (hcheckable order horder).inBand
      ⟨side, sideOf_ok.mp hside⟩ (exists_outcomeOfSide htoken) (hcheckable order horder).role_known
  obtain ⟨rungs, hrungs⟩ := exists_mapM_ok hnormalize
  exact hlock (.inr hdollar) hrungs

end Subsumption

namespace SelfCross

/-- A market. -/
def resolved : ResolvedMarket := ⟨"t", "u", false⟩

/-- A bid and an ask of one share on the YES token, both at `price`. -/
def orders (price : ℚ) : List (RawOrder × LegKind) :=
  [(⟨"yes", "BUY", .fin price, .fin 1, "MAKER"⟩, .proposed),
    (⟨"yes", "SELL", .fin price, .fin 1, "MAKER"⟩, .open)]

/-- Their legs in the same-token check. -/
def legs (price : ℚ) : List OwnOrderLeg :=
  [⟨"t", "BUY", .fin price, .proposed, none⟩, ⟨"t", "SELL", .fin price, .open, none⟩]

/-- The crossing of the two. -/
def verdict (price : ℚ) : NonCrossingVerdict := ⟨false, [⟨"t", price, price⟩]⟩

theorem checkNonCrossing_legs {price tick : ℚ} (htick : validateTickSize (.fin tick) = .ok tick)
    (hprice : validateAndRoundPrice (.fin price) tick = .ok price) :
    checkNonCrossing (legs price) (.fin tick) = .ok (verdict price) := by
  have hmeet : price ≤ price + tickAtol := by linarith [tickAtol_pos]
  let prices : AList fun _ : String => ℚ := AList.singleton "t" price
  have hlookup : prices.lookup "t" = some price := by
    simp [prices, AList.singleton, AList.lookup]
  have hcrossing : ["t"].filterMap (crossingOf ⟨prices, prices⟩) = [⟨"t", price, price⟩] := by
    simp [crossingOf, hlookup, hmeet]
  simp [checkNonCrossing, legs, verdict, htick, hprice, crossingStep, sideOf, legIsPossiblyLive,
    keepExtreme, bind, Except.bind, pure, Except.pure]
  rw [hcrossing]
  simp

theorem checkable_orders {price tick : ℚ}
    (hprice : validateAndRoundPrice (.fin price) tick = .ok price)
    (hband : tick ≤ price ∧ price ≤ 1 - tick) :
    ∀ order ∈ orders price, Checkable tick order.1 := by
  intro order horder
  have hsize : ∃ size : ℚ, PyFloat.fin 1 = .fin size ∧ 0 < size := ⟨1, rfl, one_pos⟩
  have hrole : ∃ role, validateRole "MAKER" = .ok role := ⟨.maker, rfl⟩
  rcases List.mem_cons.mp horder with rfl | horder
  · exact ⟨⟨price, hprice, hband⟩, hsize, hrole⟩
  · obtain rfl := List.mem_singleton.mp horder
    exact ⟨⟨price, hprice, hband⟩, hsize, hrole⟩

theorem mapM_ownLeg (price : ℚ) : (orders price).mapM (ownLeg resolved) = .ok (legs price) := by
  have htoken : sideToToken resolved "yes" = .ok "t" := by decide +kernel
  simp [orders, legs, ownLeg, htoken, bind, Except.bind, pure, Except.pure]

end SelfCross

/-- On a tick of a quarter the lock check rejects a bid and an ask that meet at a half. -/
theorem crossing_locks_quarter :
    lockCheckOrders ((SelfCross.orders (1 / 2)).map Prod.fst) SelfCross.resolved
      (some fifthSnapshot) (.fin (1 / 4)) = .ok .rejected := by
  have hprice : validateAndRoundPrice (.fin (1 / 2)) (1 / 4) = .ok (1 / 2) := by decide +kernel
  exact (crossing_locks (SelfCross.checkable_orders hprice (by norm_num))
    (SelfCross.mapM_ownLeg _) (SelfCross.checkNonCrossing_legs (by decide +kernel) hprice) rfl).1
    ⟨4, by norm_num⟩

/-- On a tick of three eighths the complement of a price is off the tick: the legs cross, and the
orders have no ladders. -/
theorem crossing_unnormalized :
    (SelfCross.orders (3 / 8)).mapM (ownLeg SelfCross.resolved) = .ok (SelfCross.legs (3 / 8)) ∧
      (∀ order ∈ SelfCross.orders (3 / 8), Checkable (3 / 8) order.1) ∧
      checkNonCrossing (SelfCross.legs (3 / 8)) (.fin (3 / 8)) =
        .ok (SelfCross.verdict (3 / 8)) ∧
      lockCheckOrders ((SelfCross.orders (3 / 8)).map Prod.fst) SelfCross.resolved
        (some fifthSnapshot) (.fin (3 / 8)) ≠ .ok .rejected := by
  have hprice : validateAndRoundPrice (.fin (3 / 8)) (3 / 8) = .ok (3 / 8) := by decide +kernel
  refine ⟨SelfCross.mapM_ownLeg _, SelfCross.checkable_orders hprice (by norm_num),
    SelfCross.checkNonCrossing_legs (by decide +kernel) hprice, ?_⟩
  have hraise : ((SelfCross.orders (3 / 8)).map Prod.fst).mapM
      (normalize · SelfCross.resolved (some fifthSnapshot) (.fin (3 / 8))) =
        .error ⟨.valueError, "price is not aligned to tick_size"⟩ := by decide +kernel
  unfold lockCheckOrders
  rw [hraise]
  simp [bind, Except.bind]

end Veridex.DustExecution
