import Veridex.Py.Text
import Veridex.Runtime.Schemas

/-!
# Odds messages (`ingest/txline_normalize.py`, `ingest/txline_client.py`)

A message is a decoded record. `marketstateFromTxlineOdds` folds messages of one fixture into a
`MarketState`; `reconstructClosing` is the last update before the fixture went in-running.

What `str` writes of a value that is no text is taken as given. A price's name that is no text is
refused: no action can name such a side.
-/

namespace Veridex.Ingest

open Veridex.Py Veridex.Lib Veridex.Runtime

/-! ## Reading a message -/

/-- `message.get(name)`. -/
def got (message : Params) (name : String) : Decoded := (message.lookup name).getD .null

/-- `message[name]`. -/
def required (message : Params) (name : String) : Except PyExc Decoded :=
  match message.lookup name with
  | some v => .ok v
  | none => .error ⟨.exception, "KeyError"⟩

/-- `int(v)`. -/
def intOf (v : Decoded) : Except PyExc ℤ := v.scalar.toInt

/-- `list(v or [])`. -/
def listOf (v : Decoded) : Except PyExc (List Decoded) :=
  if !v.truthy then .ok []
  else match v with
    | .arr items => .ok items
    | .str s => .ok (s.toList.map fun c => .str (String.singleton c))
    | .obj fields => .ok (fields.map fun field => .str field.1)
    | _ => .error ⟨.typeError, "object is not iterable"⟩

/-- `_try_float`. -/
def tryFloat (v : Decoded) : Except PyExc (Option PyFloat) :=
  match v.toFloat with
  | .ok x => .ok (some x)
  | .error e => if e.cls = .typeError ∨ e.cls = .valueError then .ok none else .error e

/-- `round(x)`. -/
def roundInt : PyFloat → Except PyExc ℤ
  | .fin q => .ok (pyRound q)
  | .nan => .error ⟨.valueError, "cannot convert float NaN to integer"⟩
  | _ => .error ⟨.exception, "cannot convert float infinity to integer"⟩

/-- `message.get("InRunning")`, as a truth. -/
def inRunning (message : Params) : Bool := (got message "InRunning").truthy

section

variable (str : Decoded → String)

/-- `str(v or "")`. -/
def textOr (v : Decoded) : String :=
  match v with
  | .str s => s
  | v => if v.truthy then str v else ""

/-- `market_key`. -/
def marketKey (message : Params) : String :=
  textOr str (got message "SuperOddsType") ++ "|" ++ textOr str (got message "MarketPeriod") ++ "|" ++
    textOr str (got message "MarketParameters")

/-! ## The normalizer -/

/-- A table by name: what `read` makes of each value, where it makes something. -/
def tableOf (read : PyFloat → Except PyExc Decoded) :
    List (Decoded × Decoded) → Except PyExc (List (String × Decoded))
  | [] => .ok []
  | (name, v) :: rest => do
    match ← tryFloat v with
    | none => tableOf read rest
    | some x =>
      let value ← read x
      match name with
      | .str name => return (name, value) :: (← tableOf read rest)
      | _ => .error ⟨.valueError, "validation error for MarketState"⟩

/-- `stable_prob_bps` of some outcomes. -/
def probBpsOf (outcomes : List (Decoded × Decoded)) : Except PyExc Params := do
  return Json.dictOf (← tableOf (fun x => do return .int (← roundInt (x.mul (.fin 100)))) outcomes)

/-- `stable_price` of some outcomes. -/
def priceOf (outcomes : List (Decoded × Decoded)) : Except PyExc Params := do
  return Json.dictOf (← tableOf (fun x => .ok (.float (x.div (.fin 1000)))) outcomes)

/-- A message's market. -/
def marketOf (message : Params) : Except PyExc Params := do
  let names ← listOf (got message "PriceNames")
  let prices ← listOf (got message "Prices")
  let pcts ← listOf (got message "Pct")
  let probBps ← probBpsOf (names.zip pcts)
  let price ← priceOf (names.zip prices)
  return [("stable_prob_bps", .obj probBps), ("stable_price", .obj price),
    ("suspended", .bool probBps.isEmpty)]

/-- The markets of some messages, a later one of a key in place of an earlier one. -/
def marketsOfMessages (messages : List Params) : Except PyExc (List (String × Decoded)) := do
  let markets ← messages.mapM fun message => do
    return (marketKey str message, (.obj (← marketOf message) : Decoded))
  return Json.dictOf markets

/-- `marketstate_from_txline_odds`. -/
def marketstateFromTxlineOdds (messages : List Params) (tickSeq : ℤ) :
    Except PyExc MarketState := do
  let fixtureIds ← messages.mapM fun message => do intOf (← required message "FixtureId")
  match fixtureIds with
  | [] => .error ⟨.valueError, "marketstate_from_txline_odds requires at least one message"⟩
  | fixtureId :: others =>
    if others.any (· ≠ fixtureId) then .error ⟨.valueError, "single fixture expected"⟩
    else
      let stamps ← messages.mapM fun message => do intOf (← required message "Ts")
      let markets ← marketsOfMessages str messages
      MarketState.ofJson (.obj [("fixture_id", .int fixtureId), ("tick_seq", .int tickSeq),
        ("ts", .int (stamps.foldl max (stamps.headD 0) / 1000)),
        ("phase", .int (if messages.any inRunning then 1 else 0)), ("markets", .obj markets),
        ("scores", .obj [])])

end

/-- `reconstruct_closing`. -/
def reconstructClosing (updates : List Params) : Option Params :=
  updates.foldl (fun closing update => if inRunning update then closing else some update) none

end Veridex.Ingest
