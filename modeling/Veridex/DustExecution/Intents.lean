import Veridex.DustExecution.Manifest
import Veridex.DustExecution.NonCrossing

/-!
# Typed intents, sizing and resting orders (`facade.py`, `sizing.py`, `resting_order.py`)

The request an agent makes, the mechanical size, and the two kinds of order the runner can build
from an intent: a taker's side and time in force (`resolveTakerSideTif`), or a post-only
`RestingOrder`, whose validators are its fields.
-/

namespace Veridex.DustExecution

open Veridex.Py Veridex.Policy

/-! ## The request -/

/-- `IntentKind`. -/
inductive IntentKind where
  | makeQuote
  | take
  | cancelReplace
  | cancelAll
  | noQuote
  deriving DecidableEq, Repr

/-- The literal of an intent kind. -/
def IntentKind.text : IntentKind → String
  | makeQuote => "make_quote"
  | take => "take"
  | cancelReplace => "cancel_replace"
  | cancelAll => "cancel_all"
  | noQuote => "no_quote"

/-- The literal of a side. -/
def Side.text : Side → String
  | buy => "BUY"
  | sell => "SELL"

/-- `MMIntentParams`. -/
structure MMIntentParams where
  tokenId : Option String := none
  side : Option String := none
  price : Option UnitPrice := none
  size : Option PyFloat := none
  tif : Option TimeInForce := none
  clientOrderId : Option String := none
  replacesClientOrderId : Option String := none
  deriving DecidableEq

/-- `MMExecutionToolRequest`. -/
structure MMExecutionToolRequest where
  intentKind : IntentKind
  intentParams : MMIntentParams
  strategyId : String
  strategyConfigHash : String
  policyHash : String
  sessionId : String
  manifestHash : String
  evidenceClass : EvidenceClass
  mode : ExecutionMode
  reason : Option String := none
  confidence : Option PyFloat := none
  deriving DecidableEq

/-! ## Sizing -/

/-- The check `resolve_dust_size` makes of each input. -/
def requireFiniteNonNegative (name : String) : PyFloat → Except PyExc ℚ
  | .fin q =>
    if q < 0 then .error ⟨.valueError, name ++ " must be a finite non-negative number"⟩ else .ok q
  | _ => .error ⟨.valueError, name ++ " must be a finite non-negative number"⟩

/-- `resolve_dust_size`. -/
def resolveDustSize (fixedFraction walletEquityAtDecision maxNotional maxPerOrder : PyFloat) :
    Except PyExc ℚ := do
  let fraction ← requireFiniteNonNegative "fixed_fraction" fixedFraction
  let equity ← requireFiniteNonNegative "wallet_equity_at_decision" walletEquityAtDecision
  let notional ← requireFiniteNonNegative "max_notional" maxNotional
  let perOrder ← requireFiniteNonNegative "max_per_order" maxPerOrder
  return min (min (fraction * equity) notional) perOrder

/-- `_resolve_wire_size`: the live-guarded cap when it is enabled, else the stake cap. -/
def resolveWireSize (manifest : StrategyExperimentManifest) (envelope : PolicyEnvelope)
    (walletEquityAtDecision fixedFraction : PyFloat) : Except PyExc ℚ :=
  let maxPerOrder :=
    if (PyFloat.fin 0).lt envelope.maxStakeLiveGuarded then envelope.maxStakeLiveGuarded
    else envelope.maxStake
  resolveDustSize fixedFraction walletEquityAtDecision manifest.maxNotional maxPerOrder

theorem requireFiniteNonNegative_ok {name : String} {x : PyFloat} {q : ℚ} :
    requireFiniteNonNegative name x = .ok q ↔ x = .fin q ∧ 0 ≤ q := by
  cases x with
  | fin p =>
    simp only [requireFiniteNonNegative, PyFloat.fin.injEq]
    split_ifs with h
    · simp only [false_iff, not_and, not_le]
      rintro rfl
      exact h
    · simp only [Except.ok.injEq]
      exact ⟨fun hp => ⟨hp, hp ▸ not_lt.mp h⟩, And.left⟩
  | nan | negInf | posInf => simp [requireFiniteNonNegative]

/-- **The mechanical size**: returned on four finite non-negative inputs, and within both caps. -/
theorem resolveDustSize_ok {fixedFraction equity maxNotional maxPerOrder : PyFloat} {size : ℚ} :
    resolveDustSize fixedFraction equity maxNotional maxPerOrder = .ok size ↔
      ∃ f e n p : ℚ, fixedFraction = .fin f ∧ 0 ≤ f ∧ equity = .fin e ∧ 0 ≤ e ∧
        maxNotional = .fin n ∧ 0 ≤ n ∧ maxPerOrder = .fin p ∧ 0 ≤ p ∧
        size = min (min (f * e) n) p := by
  unfold resolveDustSize
  constructor
  · intro h
    cases hf : requireFiniteNonNegative "fixed_fraction" fixedFraction with
    | error _ => simp [hf, bind, Except.bind] at h
    | ok f =>
      cases he : requireFiniteNonNegative "wallet_equity_at_decision" equity with
      | error _ => simp [hf, he, bind, Except.bind] at h
      | ok e =>
        cases hn : requireFiniteNonNegative "max_notional" maxNotional with
        | error _ => simp [hf, he, hn, bind, Except.bind] at h
        | ok n =>
          cases hp : requireFiniteNonNegative "max_per_order" maxPerOrder with
          | error _ => simp [hf, he, hn, hp, bind, Except.bind] at h
          | ok p =>
            obtain ⟨hf, hf0⟩ := requireFiniteNonNegative_ok.mp hf
            obtain ⟨he, he0⟩ := requireFiniteNonNegative_ok.mp he
            obtain ⟨hn, hn0⟩ := requireFiniteNonNegative_ok.mp hn
            obtain ⟨hp, hp0⟩ := requireFiniteNonNegative_ok.mp hp
            subst hf he hn hp
            refine ⟨f, e, n, p, rfl, hf0, rfl, he0, rfl, hn0, rfl, hp0, ?_⟩
            simpa [requireFiniteNonNegative, not_lt.mpr, hf0, he0, hn0, hp0, bind, Except.bind,
              pure, Except.pure, eq_comm] using h
  · rintro ⟨f, e, n, p, rfl, hf, rfl, he, rfl, hn, rfl, hp, rfl⟩
    simp [requireFiniteNonNegative, not_lt.mpr, hf, he, hn, hp, bind, Except.bind, pure,
      Except.pure]

/-! ## Resting orders -/

/-- `RestingOrder`: its validators' checks are its fields. It is good till cancelled or till a
date, never a taker. -/
structure RestingOrder where
  tokenId : String
  side : Side
  size : ℚ
  nativePrice : ℚ
  tickSize : PyFloat
  tif : TimeInForce
  postOnly : Bool
  gtdExpirationTs : Option ℤ
  clientOrderId : String
  size_pos : 0 < size
  price_inside : 0 < nativePrice ∧ nativePrice < 1
  clientOrderId_nonempty : clientOrderId ≠ ""
  tif_coherent : (tif = .gtc ∧ gtdExpirationTs = none) ∨
    (tif = .gtd ∧ gtdExpirationTs.any (0 < ·) = true)

/-- The tick alignment the model validator asks for. An infinite tick divides every price to zero
steps, and the steps of a `nan` tick cannot be rounded. -/
def tickAligned (nativePrice : ℚ) : PyFloat → Bool
  | .fin tick =>
    let steps := nativePrice / tick
    !(tickAtol < |steps - pyRound steps|)
  | .posInf => true
  | _ => false

/-- `RestingOrder(...)`: the field validators, then the model validator. -/
def mkRestingOrder (tokenId : String) (side : Side) (size nativePrice : ℚ) (tickSize : PyFloat)
    (tif : TimeInForce) (postOnly : Bool) (gtdExpirationTs : Option ℤ) (clientOrderId : String) :
    Except PyExc RestingOrder :=
  if hsize : 0 < size then
    if tickSize.le (.fin 0) then .error ⟨.valueError, "tick_size must be > 0"⟩
    else if hid : clientOrderId ≠ "" then
      if hprice : 0 < nativePrice ∧ nativePrice < 1 then
        if !tickAligned nativePrice tickSize then
          .error ⟨.valueError, "native_price is not aligned to tick_size"⟩
        else if htif : (tif = .gtc ∧ gtdExpirationTs = none) ∨
            (tif = .gtd ∧ gtdExpirationTs.any (0 < ·) = true) then
          .ok ⟨tokenId, side, size, nativePrice, tickSize, tif, postOnly, gtdExpirationTs,
            clientOrderId, hsize, hprice, hid, htif⟩
        else .error ⟨.valueError, "GTD carries a positive gtd_expiration_ts and GTC none"⟩
      else .error ⟨.valueError, "native_price must be strictly inside (0, 1)"⟩
    else .error ⟨.valueError, "client_order_id is required (idempotency identity)"⟩
  else .error ⟨.valueError, "size must be > 0"⟩

/-- A resting order that is built carries what it was built from. -/
theorem mkRestingOrder_ok {tokenId clientOrderId : String} {side : Side} {size nativePrice : ℚ}
    {tickSize : PyFloat} {tif : TimeInForce} {postOnly : Bool} {gtdExpirationTs : Option ℤ}
    {resting : RestingOrder}
    (h : mkRestingOrder tokenId side size nativePrice tickSize tif postOnly gtdExpirationTs
      clientOrderId = .ok resting) :
    resting.tokenId = tokenId ∧ resting.side = side ∧ resting.size = size ∧
      resting.nativePrice = nativePrice ∧ resting.tif = tif ∧ resting.postOnly = postOnly ∧
      resting.clientOrderId = clientOrderId := by
  unfold mkRestingOrder at h
  split_ifs at h
  obtain rfl := Except.ok.inj h
  exact ⟨rfl, rfl, rfl, rfl, rfl, rfl, rfl⟩

end Veridex.DustExecution
