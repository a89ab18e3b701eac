import Veridex.Runtime.Schemas

/-!
# The law (`law/recompute.py`, `checks/clv.py`)

`recompute` derives the edge, the closing-line value, the advisory Kelly fraction and the validity of
an action from its entry state and the closing one. The market, the side and the numbers in the
states are untyped.

Results: `recompute_ok` (a verdict is an abstention with a reason of its own, a rejection, or a
number), `recompute_measured` (a whole number is the difference of two probabilities).
-/

namespace Veridex.Law

open Veridex.Py Veridex.Lib Veridex.Runtime

/-- `source_mode`. -/
inductive SourceMode where
  | replay
  | live
  deriving DecidableEq, Repr

def SourceMode.text : SourceMode → String
  | replay => "replay"
  | live => "live"

/-- `PENDING`: the value of an action that is not scored. -/
def pending : Decoded := .str "pending"

/-- What `recompute` returns. -/
structure Verdict where
  edgeBps : Decoded
  clvBps : Decoded
  kellyFraction : PyFloat
  valid : Bool
  reason : String

/-- `_clamp01`. -/
def clamp01 (x : PyFloat) : PyFloat :=
  if x.lt (.fin 0) then .fin 0 else if (PyFloat.fin 1).lt x then .fin 1 else x

/-- `float(price[side])` under its handler: `none` is an exception it catches. -/
def decimalPrice (price side : Decoded) : Except PyExc (Option PyFloat) :=
  match (do (← price.item side).toFloat : Except PyExc PyFloat) with
  | .ok x => .ok (some x)
  | .error e => if e.cls = .typeError ∨ e.cls = .valueError then .ok none else .error e

/-- `v / 10000.0`. -/
def overTenThousand (v : Decoded) : Except PyExc PyFloat :=
  match v.number with
  | some _ => return (← v.toFloat).div (.fin 10000)
  | none => .error ⟨.typeError, "unsupported operand type(s) for /"⟩

/-- `market.get(name, {})`. -/
def table (market : Params) (name : String) : Decoded := (market.lookup name).getD (.obj [])

/-- `_kelly_fraction`. -/
def kellyFraction (market : Params) (side : Decoded) : Except PyExc PyFloat := do
  let probBps := table market "stable_prob_bps"
  let price := table market "stable_price"
  if !(← probBps.contains side) then return .fin 0
  if !(← price.contains side) then return .fin 0
  let some decimal ← decimalPrice price side | return .fin 0
  let b := decimal.sub (.fin 1)
  if b.le (.fin 0) then return .fin 0
  let p ← overTenThousand (← probBps.item side)
  let q := (PyFloat.fin 1).sub p
  return clamp01 (((b.mul p).sub q).div b)

/-- `_invalid`. -/
def invalid (reason : String) (kelly : PyFloat := .fin 0) : Verdict :=
  ⟨.int 0, .int 0, kelly, false, reason⟩

/-- `mapping.get(key)` of a mapping with text keys. -/
def lookupKey {α : Type} (mapping : List (String × α)) (key : Decoded) :
    Except PyExc (Option α) :=
  return (← key.key).bind fun name => mapping.lookup name

/-- `_validate_market`. -/
def validateMarket (state : MarketState) (marketKey side : Decoded) (place : String) :
    Except PyExc (Option String) := do
  match ← lookupKey state.markets marketKey with
  | none => return some (place ++ "_market_absent")
  | some market =>
    if Decoded.truthy ((market.lookup "suspended").getD .null) then return some (place ++ "_suspended")
    if !(← (table market "stable_prob_bps").contains side) then
      return some (place ++ "_side_missing")
    return none

/-- `state.markets[market_key]["stable_prob_bps"][side]`. -/
def probBps (state : MarketState) (marketKey side : Decoded) : Except PyExc Decoded := do
  let market : Decoded ← Decoded.item (marketsJson state.markets) marketKey
  let probs : Decoded ← market.item (.str "stable_prob_bps")
  probs.item side

/-- The reason of `compute_clv_check`. -/
def clvReason (format : Json.FloatFormat PyFloat) (recomputedEdgeBps : Decoded) : String :=
  "recomputed_edge_bps=" ++ recomputedEdgeBps.numberText format ++
    "bps; claimed_edge_bps recorded as untrusted metadata only"

/-- `recompute`. -/
def recompute (format : Json.FloatFormat PyFloat) (entry : MarketState) (action : AgentAction)
    (closing : Option MarketState) (sourceMode : SourceMode) : Except PyExc Verdict :=
  if action.type = .wait then .ok ⟨.int 0, pending, .fin 0, true, "wait_unscored"⟩
  else if !(action.param "market_key").truthy then .ok (invalid "market_key_missing")
  else if !(action.param "side").truthy then .ok (invalid "side_missing")
  else do
    let marketKey := action.param "market_key"
    let side := action.param "side"
    if let some reason ← validateMarket entry marketKey side "entry" then return invalid reason
    let market ← lookupKey entry.markets marketKey
    let kelly ← kellyFraction (market.getD []) side
    match closing with
    | none => match sourceMode with
      | .live => return ⟨.int 0, pending, kelly, true, "pending_closing"⟩
      | .replay => return invalid "closing_missing" kelly
    | some closing =>
      if let some reason ← validateMarket closing marketKey side "closing" then
        return invalid reason kelly
      let entryBps ← probBps entry marketKey side
      let closingBps ← probBps closing marketKey side
      let clvBps ← closingBps.sub entryBps
      return ⟨clvBps, clvBps, kelly, true, clvReason format clvBps⟩

/-! ## What a verdict is -/

/-- A difference is a number. -/
theorem sub_eq_ok {a b v : Decoded} (h : a.sub b = .ok v) :
    (∃ n, v = .int n) ∨ ∃ x, v = .float x := by
  unfold Decoded.sub at h
  simp only at h
  split at h
  · obtain rfl := Except.ok.inj h
    exact .inl ⟨_, rfl⟩
  · split_ifs at h
    · obtain ⟨x, -, h⟩ := bind_eq_ok.mp h
      obtain ⟨y, -, h⟩ := bind_eq_ok.mp h
      obtain rfl := Except.ok.inj h
      exact .inr ⟨_, rfl⟩

/-- The kinds of verdicts: an abstention, a rejection, and a value. -/
inductive Verdict.IsOneOf (v : Verdict) : Prop
  | abstains (clv : v.clvBps = pending) (reason : v.reason ≠ "pending_horizon")
      (edge : v.edgeBps = .int 0) (valid : v.valid = true)
  | rejects (clv : v.clvBps = .int 0) (edge : v.edgeBps = .int 0) (valid : v.valid = false)
  | measures (clv : (∃ n, v.clvBps = .int n) ∨ ∃ x, v.clvBps = .float x)
      (edge : v.edgeBps = v.clvBps) (valid : v.valid = true)

theorem invalid_rejects (reason : String) (kelly : PyFloat) :
    (invalid reason kelly).IsOneOf :=
  .rejects rfl rfl rfl

/-- **A verdict** is one of these. -/
theorem recompute_ok {format : Json.FloatFormat PyFloat} {entry : MarketState}
    {action : AgentAction} {closing : Option MarketState} {sourceMode : SourceMode} {v : Verdict}
    (h : recompute format entry action closing sourceMode = .ok v) : v.IsOneOf := by
  unfold recompute at h
  split_ifs at h
  · obtain rfl := Except.ok.inj h
    exact .abstains rfl (by decide) rfl rfl
  · obtain rfl := Except.ok.inj h
    exact invalid_rejects _ _
  · obtain rfl := Except.ok.inj h
    exact invalid_rejects _ _
  · simp only at h
    obtain ⟨entryReason, -, h⟩ := bind_eq_ok.mp h
    cases entryReason with
    | some reason =>
      obtain rfl := Except.ok.inj h
      exact invalid_rejects _ _
    | none =>
      obtain ⟨market, -, h⟩ := bind_eq_ok.mp h
      obtain ⟨kelly, -, h⟩ := bind_eq_ok.mp h
      cases closing with
      | none =>
        cases sourceMode with
        | live =>
          obtain rfl := Except.ok.inj h
          exact .abstains rfl (by simp) rfl rfl
        | replay =>
          obtain rfl := Except.ok.inj h
          exact invalid_rejects _ _
      | some closing =>
        obtain ⟨closingReason, -, h⟩ := bind_eq_ok.mp h
        cases closingReason with
        | some reason =>
          obtain rfl := Except.ok.inj h
          exact invalid_rejects _ _
        | none =>
          obtain ⟨entryBps, -, h⟩ := bind_eq_ok.mp h
          obtain ⟨closingBps, -, h⟩ := bind_eq_ok.mp h
          obtain ⟨clvBps, hclv, h⟩ := bind_eq_ok.mp h
          obtain rfl := Except.ok.inj h
          exact .measures (sub_eq_ok hclv) rfl rfl

/-- A valid whole value is the difference of the closing and the entry probability. -/
theorem recompute_measured {format : Json.FloatFormat PyFloat} {entry : MarketState}
    {action : AgentAction} {closing : Option MarketState} {sourceMode : SourceMode} {v : Verdict}
    (h : recompute format entry action closing sourceMode = .ok v) (hvalid : v.valid = true)
    (hwhole : v.clvBps.properInt.isSome = true) : ∃ closingState entryBps closingBps,
      closing = some closingState ∧ (action.param "market_key").truthy = true ∧
      probBps entry (action.param "market_key") (action.param "side") = .ok entryBps ∧
      probBps closingState (action.param "market_key") (action.param "side") = .ok closingBps ∧
      closingBps.sub entryBps = .ok v.clvBps := by
  unfold recompute at h
  split_ifs at h with hwait hkey hside
  · obtain rfl := Except.ok.inj h
    exact nomatch hwhole
  · obtain rfl := Except.ok.inj h
    exact nomatch hvalid
  · obtain rfl := Except.ok.inj h
    exact nomatch hvalid
  · simp only at h
    obtain ⟨entryReason, -, h⟩ := bind_eq_ok.mp h
    cases entryReason with
    | some reason =>
      obtain rfl := Except.ok.inj h
      exact nomatch hvalid
    | none =>
      obtain ⟨market, -, h⟩ := bind_eq_ok.mp h
      obtain ⟨kelly, -, h⟩ := bind_eq_ok.mp h
      cases closing with
      | none =>
        cases sourceMode with
        | live =>
          obtain rfl := Except.ok.inj h
          exact nomatch hwhole
        | replay =>
          obtain rfl := Except.ok.inj h
          exact nomatch hvalid
      | some closing =>
        obtain ⟨closingReason, -, h⟩ := bind_eq_ok.mp h
        cases closingReason with
        | some reason =>
          obtain rfl := Except.ok.inj h
          exact nomatch hvalid
        | none =>
          obtain ⟨entryBps, hentry, h⟩ := bind_eq_ok.mp h
          obtain ⟨closingBps, hclosing, h⟩ := bind_eq_ok.mp h
          obtain ⟨clvBps, hclv, h⟩ := bind_eq_ok.mp h
          obtain rfl := Except.ok.inj h
          exact ⟨closing, entryBps, closingBps, rfl, by simpa using hkey, hentry, hclosing, hclv⟩

end Veridex.Law
