import Veridex.DustExecution.OrderCommitment

/-!
# The amounts of an order (`mode_b_write_port.py`)

`resolveOrderAmounts` rounds an order to the precision of the venue: the price to its tick, the shares
down to cents, and their product once more where it has too many decimals. On a price of the tick grid
nothing is left to round but the shares, since the price has `d` decimals, the shares two, and the
product is allowed `d + 2`.

The shares of a size below a cent are none, and no check stands between them and the wire: the amounts
are two zeros, which `admitIntent` takes for digits, and the order is compiled.

Results: `orderAmounts_aligned`, `resolveOrderAmounts_exact_iff`.
-/

namespace Veridex.DustExecution

open Veridex.Py Veridex.Lib

/-! ## The rounding -/

/-- `_RoundConfig`. -/
structure RoundConfig where
  price : ℕ
  size : ℕ
  amount : ℕ
  deriving DecidableEq

/-- `_ROUNDING_CONFIG`. A tick prints as the key of its own row. -/
def roundingConfig : List (ℚ × RoundConfig) := [
  (1 / 10, ⟨1, 2, 3⟩),
  (1 / 100, ⟨2, 2, 4⟩),
  (1 / 1000, ⟨3, 2, 5⟩),
  (1 / 10000, ⟨4, 2, 6⟩)]

/-- `_round_down`. -/
def roundDown (x : ℚ) (sigDigits : ℕ) : ℚ := ⌊x * 10 ^ sigDigits⌋ / 10 ^ sigDigits

/-- `_round_normal`. -/
def roundNormal (x : ℚ) (sigDigits : ℕ) : ℚ := pyRoundTo sigDigits x

/-- `_round_up`. -/
def roundUp (x : ℚ) (sigDigits : ℕ) : ℚ := ⌈x * 10 ^ sigDigits⌉ / 10 ^ sigDigits

/-- `_decimal_places` of a decimal number: a whole float prints one. -/
def decimalPlaces (x : ℚ) : ℕ :=
  ((List.range' 1 (Nat.log2 x.den + 1)).find? fun places => x.den ∣ 10 ^ places).getD 0

/-- `_to_token_decimals`. -/
def toTokenDecimals (x : ℚ) : ℤ :=
  let f := 10 ^ 6 * x
  let f := if 0 < decimalPlaces f then roundNormal f 0 else f
  f.num.tdiv f.den

/-- `_round_normal` of a price that may be no number. -/
def roundNormalPrice (sigDigits : ℕ) : PyFloat → Except PyExc ℚ
  | .fin price => .ok (roundNormal price sigDigits)
  | .nan => .error ⟨.valueError, "cannot convert float NaN to integer"⟩
  | _ => .error ⟨.exception, "cannot convert float infinity to integer"⟩

/-- The collateral of some shares: their cost, cut to the decimals an amount may have. -/
def rawCollateral (config : RoundConfig) (shares rawPrice : ℚ) : ℚ :=
  let raw := shares * rawPrice
  if config.amount < decimalPlaces raw then
    let raw := roundUp raw (config.amount + 4)
    if config.amount < decimalPlaces raw then roundDown raw config.amount else raw
  else raw

/-- The amounts of an order, the maker's first. -/
def orderAmounts (side : String) (size : ℚ) (nativePrice tickSize : PyFloat) :
    Except PyExc (ℤ × ℤ) := do
  let config ← match tickSize with
    | .fin tick => match roundingConfig.lookup tick with
      | some config => .ok config
      | none => .error ⟨.failClosed, "unsupported tick_size for venue-precision amount rounding"⟩
    | _ => .error ⟨.failClosed, "unsupported tick_size for venue-precision amount rounding"⟩
  let rawPrice ← roundNormalPrice config.price nativePrice
  let shares := roundDown size config.size
  let collateral := rawCollateral config shares rawPrice
  if side = "BUY" then return (toTokenDecimals collateral, toTokenDecimals shares)
  else if side = "SELL" then return (toTokenDecimals shares, toTokenDecimals collateral)
  else .error ⟨.failClosed, "side must be 'BUY' or 'SELL', got " ++ pyRepr side ++ " (fail closed)"⟩

/-- `resolve_order_amounts`. -/
def resolveOrderAmounts (side : String) (size : ℚ) (nativePrice tickSize : PyFloat) :
    Except PyExc (String × String) := do
  let (makerAmount, takerAmount) ← orderAmounts side size nativePrice tickSize
  return (toString makerAmount, toString takerAmount)

/-! ## The write port -/

/-- `KeylessModeBWritePort.submit_order` up to the transport: the payload that is submitted, for the
salt and the second that are read. -/
def submitOrder (format : Json.FloatFormat PyFloat) (sha256 : List Char → String)
    (textOf : Value → String) (owner salt : String) (nowS : ℤ) (order : WireOrder)
    (negRisk : Bool := false) : Except PyExc CompiledSigningPayload := do
  let (makerAmount, takerAmount) ←
    resolveOrderAmounts order.side.text order.size order.nativePrice order.tickSize
  let intent ← admitIntent order.side makerAmount takerAmount order.nativePrice (.fin order.size)
    order.tif order.postOnly false (toString order.expirationS)
  let binding : SignerBinding :=
    { salt, maker := order.binding.walletAddress, owner, timestamp := toString nowS,
      signer := some order.binding.walletAddress }
  compile intent { tokenId := order.tokenId, negRisk } binding format sha256 textOf

/-! ## Decimals -/

theorem decimalPlaces_le {x : ℚ} {places : ℕ} (hplaces : 1 ≤ places) (h : x.den ∣ 10 ^ places) :
    decimalPlaces x ≤ places := by
  unfold decimalPlaces
  cases hfound : (List.range' 1 (Nat.log2 x.den + 1)).find? fun places => x.den ∣ 10 ^ places with
  | none => exact Nat.zero_le _
  | some found =>
    rw [List.find?_range'_eq_some] at hfound
    by_contra hlt
    have hfirst := hfound.2.2 places hplaces (by simpa using hlt)
    simp [h] at hfirst

theorem den_dvd_of_eq {x : ℚ} {n : ℤ} {places : ℕ} (h : x * 10 ^ places = n) :
    x.den ∣ 10 ^ places := by
  have hx : x = Rat.divInt n (10 ^ places : ℕ) := by
    rw [Rat.divInt_eq_div, eq_div_iff (by positivity)]
    exact_mod_cast h
  have hdvd : (x.den : ℤ) ∣ ((10 ^ places : ℕ) : ℤ) := by
    rw [hx]
    exact Rat.den_dvd _ _
  exact_mod_cast hdvd

/-- A whole number of the smallest units. -/
theorem toTokenDecimals_of_eq {x : ℚ} {n : ℤ} (h : 10 ^ 6 * x = n) : toTokenDecimals x = n := by
  have hround : pyRoundTo 0 (n : ℚ) = n := pyRoundTo_of_decimals (n := n) (by simp)
  unfold toTokenDecimals roundNormal
  simp only [h, hround, ite_self]
  simp

/-! ## A price on the grid -/

variable {side : Side} {tick price size : ℚ} {config : RoundConfig}

/-- A supported tick is a unit of its `d` decimals, and amounts are allowed two more. -/
theorem lookup_of_supported (h : tick ∈ roundingConfig.map Prod.fst) :
    ∃ d, d ≤ 4 ∧ tick = 1 / 10 ^ d ∧ roundingConfig.lookup tick = some ⟨d, 2, d + 2⟩ := by
  simp only [roundingConfig, List.map_cons, List.map_nil, List.mem_cons, List.not_mem_nil,
    or_false] at h
  rcases h with rfl | rfl | rfl | rfl
  · exact ⟨1, by decide, by norm_num, by decide +kernel⟩
  · exact ⟨2, by decide, by norm_num, by decide +kernel⟩
  · exact ⟨3, by decide, by norm_num, by decide +kernel⟩
  · exact ⟨4, by decide, by norm_num, by decide +kernel⟩

/-- The collateral of cents of shares at a price of `d` decimals needs no rounding. -/
theorem rawCollateral_exact {d : ℕ} {cents steps : ℤ} :
    rawCollateral ⟨d, 2, d + 2⟩ (cents / 10 ^ 2) (steps / 10 ^ d) =
      cents / 10 ^ 2 * (steps / 10 ^ d) := by
  have hwhole : (cents / 10 ^ 2 * (steps / 10 ^ d) : ℚ) * 10 ^ (d + 2) = ((cents * steps : ℤ) : ℚ) := by
    push_cast
    field_simp
    ring
  have hplaces := decimalPlaces_le (by omega) (den_dvd_of_eq hwhole)
  unfold rawCollateral
  dsimp only
  rw [if_neg (not_lt.mpr hplaces)]

/-- The two legs of an order, in the smallest units. -/
def amountsOf (side : Side) (collateral shares : ℤ) : ℤ × ℤ :=
  match side with
  | .buy => (collateral, shares)
  | .sell => (shares, collateral)

/-- **The amounts** of an order whose price is `steps` ticks of `d` decimals. -/
theorem orderAmounts_aligned {d : ℕ} {steps : ℤ} (hd : d ≤ 4)
    (hconfig : roundingConfig.lookup tick = some ⟨d, 2, d + 2⟩) (hprice : price = steps / 10 ^ d) :
    orderAmounts side.text size (.fin price) (.fin tick) =
      .ok (amountsOf side (⌊size * 100⌋ * steps * 10 ^ (4 - d)) (⌊size * 100⌋ * 10 ^ 4)) := by
  have hround : roundNormal price d = steps / 10 ^ d := by
    rw [hprice]
    exact pyRoundTo_of_decimals (div_mul_cancel₀ _ (by positivity))
  have hshares : roundDown size 2 = (⌊size * 100⌋ : ℤ) / 10 ^ 2 := by
    norm_num [roundDown]
  have htokens : toTokenDecimals ((⌊size * 100⌋ : ℤ) / 10 ^ 2) = ⌊size * 100⌋ * 10 ^ 4 := by
    refine toTokenDecimals_of_eq ?_
    push_cast
    ring
  have hcollateral : toTokenDecimals ((⌊size * 100⌋ : ℤ) / 10 ^ 2 * (steps / 10 ^ d)) =
      ⌊size * 100⌋ * steps * 10 ^ (4 - d) := by
    refine toTokenDecimals_of_eq ?_
    interval_cases d <;> push_cast <;> ring
  unfold orderAmounts
  dsimp only
  rw [hconfig]
  refine bind_eq_ok.mpr ⟨_, rfl, bind_eq_ok.mpr ⟨_, rfl, ?_⟩⟩
  dsimp only
  rw [hround, hshares, rawCollateral_exact, htokens, hcollateral]
  cases side with
  | buy => rfl
  | sell => rfl

/-! ## Exact orders -/

/-- Amounts that buy or sell no more shares than asked, less than a cent fewer, and some, at exactly
the price. -/
structure ExactAmounts (size price : ℚ) (collateral shares : ℤ) : Prop where
  collateral_pos : 0 < collateral
  shares_pos : 0 < shares
  shares_gt : size - 1 / 100 < (shares : ℚ) / 10 ^ 6
  shares_le : (shares : ℚ) / 10 ^ 6 ≤ size
  ratio : (collateral : ℚ) / shares = price

/-- A payload whose message and body hold these amounts. -/
def CarriesAmounts (payload : CompiledSigningPayload) (amounts : ℤ × ℤ) : Prop :=
  ∃ intent market binding, intent.makerAmount = toString amounts.1 ∧
    intent.takerAmount = toString amounts.2 ∧
    payload.postBody = .obj (postBody intent market binding) ∧
    payload.canonicalV2TypedData = typedDataOf market.negRisk (signedMessage intent market binding)

/-- The order is exact: its amounts are, and every payload submitted for it carries them. -/
def ExactOrder (side : Side) (size price tick : ℚ) : Prop :=
  ∃ collateral shares, ExactAmounts size price collateral shares ∧
    orderAmounts side.text size (.fin price) (.fin tick) = .ok (amountsOf side collateral shares) ∧
    resolveOrderAmounts side.text size (.fin price) (.fin tick) =
      .ok (toString (amountsOf side collateral shares).1,
        toString (amountsOf side collateral shares).2) ∧
    ∀ format sha256 textOf owner salt nowS (order : WireOrder) negRisk payload,
      order.side = side → order.size = size → order.nativePrice = .fin price →
      order.tickSize = .fin tick →
      submitOrder format sha256 textOf owner salt nowS order negRisk = .ok payload →
      CarriesAmounts payload (amountsOf side collateral shares)

theorem admitIntent_ok {makerAmount takerAmount expiration : String} {nativePrice size : PyFloat}
    {tif : TimeInForce} {postOnly deferExec : Bool} {intent : AdmittedPostRoundingIntent}
    (h : admitIntent side makerAmount takerAmount nativePrice size tif postOnly deferExec expiration =
      .ok intent) : intent.makerAmount = makerAmount ∧ intent.takerAmount = takerAmount := by
  obtain ⟨price, -, h⟩ := bind_eq_ok.mp h
  split_ifs at h
  obtain rfl := Except.ok.inj h
  exact ⟨rfl, rfl⟩

/-- What is submitted for an order carries its amounts. -/
theorem carriesAmounts_of_submit {format : Json.FloatFormat PyFloat} {sha256 : List Char → String}
    {textOf : Value → String} {owner salt : String} {nowS : ℤ} {order : WireOrder} {negRisk : Bool}
    {payload : CompiledSigningPayload} {amounts : ℤ × ℤ}
    (hamounts : orderAmounts order.side.text order.size order.nativePrice order.tickSize = .ok amounts)
    (h : submitOrder format sha256 textOf owner salt nowS order negRisk = .ok payload) :
    CarriesAmounts payload amounts := by
  obtain ⟨texts, htexts, h⟩ := bind_eq_ok.mp h
  obtain ⟨amounts', hamounts', htexts⟩ := bind_eq_ok.mp htexts
  obtain rfl := Except.ok.inj (hamounts.symm.trans hamounts')
  obtain rfl := Except.ok.inj htexts
  dsimp only at h
  obtain ⟨intent, hintent, h⟩ := bind_eq_ok.mp h
  obtain ⟨hmaker, htaker⟩ := admitIntent_ok hintent
  obtain ⟨-, htyped, -, hbody, -⟩ := compile_ok h
  exact ⟨intent, _, _, hmaker, htaker, hbody, htyped⟩

/-- The shares of a size, in cents, are more than none for a cent or more. -/
theorem cents_pos : 0 < ⌊size * 100⌋ ↔ 1 / 100 ≤ size := by
  rw [← Int.add_one_le_iff, zero_add, Int.le_floor]
  constructor <;> intro h
  · push_cast at h
    linarith
  · push_cast
    linarith

/-- The amounts of a size of a cent or more are exact. -/
theorem exactAmounts_of_cent {d : ℕ} {steps : ℤ} (hd : d ≤ 4) (hsteps : 0 < steps)
    (hcent : 1 / 100 ≤ size) :
    ExactAmounts size (steps / 10 ^ d) (⌊size * 100⌋ * steps * 10 ^ (4 - d))
      (⌊size * 100⌋ * 10 ^ 4) := by
  have hcents : 0 < ⌊size * 100⌋ := cents_pos.mpr hcent
  have hshares : ((⌊size * 100⌋ * 10 ^ 4 : ℤ) : ℚ) / 10 ^ 6 = ⌊size * 100⌋ / 100 := by
    push_cast
    ring
  refine ⟨by positivity, by positivity, ?_, ?_, ?_⟩
  · have hlt := Int.lt_floor_add_one (size * 100)
    rw [hshares]
    linarith
  · have hle := Int.floor_le (size * 100)
    rw [hshares]
    linarith
  · have hne : (⌊size * 100⌋ : ℚ) ≠ 0 := by exact_mod_cast hcents.ne'
    push_cast
    interval_cases d <;> field_simp <;> ring

/-- **Exact amounts**: an order of a size that is sized, at a price of the tick grid inside the unit
interval, is exact if and only if the size is a cent of a share or more. -/
theorem resolveOrderAmounts_exact_iff {fixedFraction walletEquity maxNotional maxPerOrder : PyFloat}
    (htick : tick ∈ roundingConfig.map Prod.fst) (haligned : ∃ steps : ℤ, price = steps * tick)
    (hprice : tick ≤ price ∧ price ≤ 1 - tick)
    (hsize : resolveDustSize fixedFraction walletEquity maxNotional maxPerOrder = .ok size) :
    ExactOrder side size price tick ↔ 1 / 100 ≤ size := by
  obtain ⟨d, hd, rfl, hconfig⟩ := lookup_of_supported htick
  obtain ⟨steps, rfl⟩ := haligned
  rw [mul_one_div] at hprice ⊢
  have hamounts : orderAmounts side.text size (.fin (steps / 10 ^ d)) (.fin (1 / 10 ^ d)) = _ :=
    orderAmounts_aligned hd hconfig rfl
  have hsteps : 0 < steps := by
    have hscaled : (1 : ℚ) ≤ steps := (div_le_div_iff_of_pos_right (by positivity)).mp hprice.1
    exact_mod_cast hscaled
  constructor
  · rintro ⟨collateral, shares, hexact, hfound, -⟩
    obtain ⟨hmaker, htaker⟩ := Prod.mk.inj (Except.ok.inj (hamounts.symm.trans hfound))
    have hshares : shares = ⌊size * 100⌋ * 10 ^ 4 := by
      cases side with
      | buy => exact htaker.symm
      | sell => exact hmaker.symm
    have hpos := hexact.shares_pos
    rw [hshares] at hpos
    exact cents_pos.mp (pos_of_mul_pos_left hpos (by norm_num))
  · intro hcent
    refine ⟨_, _, exactAmounts_of_cent hd hsteps hcent, hamounts,
      bind_eq_ok.mpr ⟨_, hamounts, rfl⟩, ?_⟩
    rintro format sha256 textOf owner salt nowS order negRisk payload rfl rfl horder htick' hsubmit
    refine carriesAmounts_of_submit ?_ hsubmit
    rw [horder, htick']
    exact hamounts

/-- A buy of two shares at a half, on cents, is exact. -/
theorem resolveOrderAmounts_exact_iff_twoShares :
    ExactOrder .buy 2 (1 / 2) (1 / 100) ↔ (1 / 100 : ℚ) ≤ 2 :=
  have hsize : resolveDustSize (.fin 1) (.fin 2) (.fin 3) (.fin 4) = .ok 2 :=
    resolveDustSize_ok.mpr ⟨1, 2, 3, 4, rfl, by norm_num, rfl, by norm_num, rfl, by norm_num, rfl,
      by norm_num, by norm_num⟩
  resolveOrderAmounts_exact_iff (by decide +kernel) ⟨50, by norm_num⟩ (by norm_num) hsize

/-- A buy of half a cent of a share. -/
def dustOrder : WireOrder where
  tokenId := "7"
  side := .buy
  nativePrice := .fin (1 / 2)
  size := 1 / 200
  tif := .fak
  postOnly := false
  tickSize := .fin (1 / 100)
  binding := {
    provider := "privy"
    walletRef := "wallet"
    walletAddress := "0x1"
    chainId := "137"
    venue := "polymarket"
    privyPolicyContentHash := ""
    authorizationQuorumRef := ""
    authorizationQuorumContentHash := ""
    quorumThreshold := 1 }
  auth := ⟨0, [], 1, ""⟩

/-- What is admitted for it. -/
def dustIntent : AdmittedPostRoundingIntent where
  side := .buy
  makerAmount := "0"
  takerAmount := "0"
  nativePrice := ⟨1 / 2, half_mem⟩
  size := .fin (1 / 200)
  tif := .fak

/-- Who signs it. -/
def dustBinding : SignerBinding where
  salt := "1"
  maker := "0x1"
  owner := "owner"
  timestamp := "0"
  signer := some "0x1"

/-- **An empty order**: half a cent of a share is a size that is sized, its amounts are two zeros, and
the order is submitted with them. -/
theorem dustOrder_empty :
    resolveDustSize (.fin (1 / 200)) (.fin 1) (.fin 1) (.fin 1) = .ok (1 / 200) ∧
    resolveOrderAmounts Side.buy.text (1 / 200) (.fin (1 / 2)) (.fin (1 / 100)) = .ok ("0", "0") ∧
    (∃ payload, submitOrder ratioFormat String.ofList (fun _ => "") "owner" "1" 0 dustOrder =
      .ok payload ∧ CarriesAmounts payload (0, 0)) ∧
    ¬ ExactOrder .buy (1 / 200) (1 / 2) (1 / 100) := by
  have hfloor : ⌊(1 / 200 * 100 : ℚ)⌋ = 0 := by norm_num
  have hamounts : orderAmounts Side.buy.text (1 / 200) (.fin (1 / 2)) (.fin (1 / 100)) =
      .ok (0, 0) := by
    have hsteps : (1 / 2 : ℚ) = (50 : ℤ) / 10 ^ 2 := by norm_num
    have haligned : orderAmounts Side.buy.text (1 / 200) (.fin (1 / 2)) (.fin (1 / 100)) = _ :=
      orderAmounts_aligned (by decide) (by decide +kernel) hsteps
    rwa [hfloor] at haligned
  have hresolve : resolveOrderAmounts Side.buy.text (1 / 200) (.fin (1 / 2)) (.fin (1 / 100)) =
      .ok ("0", "0") := bind_eq_ok.mpr ⟨_, hamounts, rfl⟩
  refine ⟨resolveDustSize_ok.mpr ⟨1 / 200, 1, 1, 1, rfl, by norm_num, rfl, by norm_num, rfl,
    by norm_num, rfl, by norm_num, by norm_num⟩, hresolve, ?_, ?_⟩
  · have hprice : UnitPrice.ofFloat (.fin (1 / 2)) = .ok dustIntent.nativePrice :=
      dif_pos (by norm_num)
    have hdigits : isDigits "0" = true := by decide
    have hintent : admitIntent .buy "0" "0" (.fin (1 / 2)) (.fin (1 / 200)) .fak false false "0" =
        .ok dustIntent :=
      bind_eq_ok.mpr ⟨_, hprice, by rw [hdigits]; rfl⟩
    have hencodes : encodes dustIntent { tokenId := "7" } dustBinding = true := by decide +kernel
    obtain ⟨payload, hpayload⟩ : ∃ payload, compile dustIntent { tokenId := "7" } dustBinding
        ratioFormat String.ofList (fun _ => "") = .ok payload :=
      exists_compiled hencodes rfl (by decide)
    have hsubmit : submitOrder ratioFormat String.ofList (fun _ => "") "owner" "1" 0 dustOrder =
        .ok payload :=
      bind_eq_ok.mpr ⟨_, hresolve, bind_eq_ok.mpr ⟨_, hintent, hpayload⟩⟩
    exact ⟨payload, hsubmit, carriesAmounts_of_submit hamounts hsubmit⟩
  · rintro ⟨collateral, shares, hexact, hfound, -⟩
    obtain ⟨-, rfl⟩ := Prod.mk.inj (Except.ok.inj (hamounts.symm.trans hfound))
    exact hexact.shares_pos.ne rfl

end Veridex.DustExecution
