import Veridex.DustExecution.NormalizedLadders
import Veridex.Lib.Ladder
import Veridex.Venues.Base

/-!
# The Polymarket adapter (`venues/polymarket.py`)

Prices inside are decimal odds, on the venue's side native share prices. A quote is what it costs to
fill a size from the asks; an order is sent at its native price, on the tick.

The arithmetic of prices is exact. The vendored order book, which sorts the asks, is a parameter.
-/

namespace Veridex.Venues

open Veridex.Py Veridex.Lib

/-! ## Prices -/

/-- `native_to_decimal`. -/
def nativeToDecimal (q : ℚ) : Except PyExc ℚ :=
  if q ≤ 0 then .error ⟨.valueError, "native share price must be > 0"⟩ else .ok (1 / q)

/-- `decimal_to_native`. -/
def decimalToNative (price : PyFloat) : Except PyExc PyFloat :=
  match price with
  | .fin p => if p ≤ 0 then .error ⟨.valueError, "decimal odds must be > 0"⟩ else .ok (.fin (1 / p))
  | .posInf => .ok (.fin 0)
  | .negInf => .error ⟨.valueError, "decimal odds must be > 0"⟩
  | .nan => .ok .nan

/-- `round_to_tick`. -/
def roundToTick (q : PyFloat) (tick : ℚ) : Except PyExc ℚ :=
  if tick ≤ 0 then .error ⟨.valueError, "tick size must be > 0"⟩
  else match q with
    | .fin q => .ok (pyRound (q / tick) * tick)
    | .nan => .error ⟨.valueError, "cannot convert float NaN to integer"⟩
    | _ => .error ⟨.exception, "cannot convert float infinity to integer"⟩

/-! ## The book -/

/-- `raw[name]` of a dictionary, `raw[index]` of anything else; what raises is nothing. -/
def levelItem (raw : Value) (name : String) (index : ℕ) : Option Value :=
  match raw with
  | .dict items => items.lookup name
  | .list items => items[index]?
  | .str s => s.toList[index]?.map fun c => .str (String.singleton c)
  | _ => none

/-- `float(item)` of a level; an item that is missing or no number drops the level. -/
def levelNumber (item : Option Value) : Except PyExc (Option PyFloat) :=
  match item with
  | none => .ok none
  | some value =>
    match value.toFloat with
    | .ok x => .ok (some x)
    | .error e => if e.cls = .typeError ∨ e.cls = .valueError then .ok none else .error e

/-- One level of `_parse_levels`. -/
def parseLevel (raw : Value) : Except PyExc (Option (PyFloat × PyFloat)) := do
  let some price ← levelNumber (levelItem raw "price" 0) | return none
  let some size ← levelNumber (levelItem raw "size" 1) | return none
  return if (PyFloat.fin 0).lt price && (PyFloat.fin 0).lt size then some (price, size) else none

/-- `_parse_levels`. -/
def parseLevels (rawLevels : Value) : Except PyExc (List (PyFloat × PyFloat)) := do
  let raws ← if rawLevels.truthy then rawLevels.iter else .ok []
  return (← raws.mapM parseLevel).reduceOption

/-- The levels, where their numbers are finite. -/
def exactLevels (levels : List (PyFloat × PyFloat)) : Option (List (ℚ × ℚ)) :=
  levels.mapM fun level =>
    match level with
    | (.fin price, .fin size) => some (price, size)
    | _ => none

/-- The cut-off of the walk. -/
def fillTolerance : ℚ := 1 / 10 ^ 12

/-- The walk of `_fill_to_size`, from what remains and what is filled on. -/
def fillFrom (remaining notional filled : ℚ) : List (ℚ × ℚ) → ℚ × ℚ
  | [] => (notional, filled)
  | (price, size) :: rest =>
    let take := if size < remaining then size else remaining
    let notional := notional + price * take
    let filled := filled + take
    let remaining := remaining - take
    if remaining ≤ fillTolerance then (notional, filled) else fillFrom remaining notional filled rest

/-- `_fill_to_size`. -/
def fillToSize (ladder : List (ℚ × ℚ)) (forSize : ℚ) : Option (ℚ × ℚ) :=
  if ladder = [] ∨ forSize ≤ 0 then none
  else
    let (notional, filled) := fillFrom forSize 0 0 ladder
    if filled ≤ 0 then none else some (notional / filled, filled)

/-- `_sorted_ask_ladder`, by the vendored `LOB`. -/
def sortedAskLadder (lob : List (ℚ × ℚ) → List (ℚ × ℚ)) (levels : List (ℚ × ℚ)) : List (ℚ × ℚ) :=
  if levels = [] then [] else lob levels

/-- `quote_market`, of the levels and the time of the book. -/
def quoteMarket (lob : List (ℚ × ℚ) → List (ℚ × ℚ)) (marketRef : String) (forSize : ℚ) (ts : ℤ)
    (levels : List (ℚ × ℚ)) : Except PyExc Quote :=
  match fillToSize (sortedAskLadder lob levels) forSize with
  | none => .ok {
      marketRef := marketRef
      price := .fin 0
      size := .fin 0
      forSize := some (.fin forSize)
      ts := ts }
  | some (avgQ, filled) => do
    let price ← nativeToDecimal avgQ
    return {
      marketRef := marketRef
      price := .fin price
      nativePrice := some (.fin avgQ)
      size := .fin filled
      forSize := some (.fin forSize)
      ts := ts }

/-! ## Orders -/

/-- `ResolvedMarket`, with its tick. -/
structure TickedMarket extends DustExecution.ResolvedMarket where
  tickSize : ℚ
  deriving DecidableEq

/-- `PolymarketAdapter`, as its orders read it. -/
structure PolymarketAdapter where
  resolved : TickedMarket
  writeEnabled : Bool
  hasWriteClient : Bool
  dryRun : Bool := true

/-- `_require_armed`. -/
def PolymarketAdapter.requireArmed (adapter : PolymarketAdapter) : Except PyExc Unit :=
  if ¬ adapter.writeEnabled then
    .error ⟨.exception, "Polymarket write path disabled (mainnet real money)"⟩
  else if adapter.dryRun then .error ⟨.exception, "Polymarket submit refused: DRY_RUN active"⟩
  else if ¬ adapter.hasWriteClient then
    .error ⟨.exception, "Polymarket write client not injected"⟩
  else .ok ()

/-- What `limit_order` is called with. -/
structure LimitOrder where
  ticker : String
  amount : PyFloat
  price : ℚ
  tif : TakerTif
  roundPrice : Bool := false
  tickSize : ℚ
  deriving DecidableEq

/-- `submit_order`, up to the call of `limit_order`. -/
def PolymarketAdapter.submitOrder (adapter : PolymarketAdapter) (order : Order) :
    Except PyExc LimitOrder := do
  adapter.requireArmed
  let tokenId ← DustExecution.sideToToken adapter.resolved.toResolvedMarket order.side
  let nativePrice ← roundToTick (← decimalToNative order.price) adapter.resolved.tickSize
  if 0 < nativePrice ∧ nativePrice < 1 then
    return { ticker := tokenId, amount := order.size, price := nativePrice, tif := order.tif,
             tickSize := adapter.resolved.tickSize }
  else .error ⟨.exception, "refusing to submit: native price outside (0, 1)"⟩

end Veridex.Venues
