import Veridex.Lib.RollingWindow
import Veridex.Policy.Envelope

/-!
# The realized-loss accumulator and the Mode B cap gate (`dust_execution/risk.py`)

`RealizedFillRecord` is the one admissible input of the accumulator: its constructor's checks
(finite, non-negative fee, venue source) are fields, so a record that exists has passed them.
`PaperReceipt` is the other carrier, refused by `applyRealizedFill` by type.

The accumulator folds a fill into the session net and into the net of the current UTC day, which
is a rolling window (`Veridex.Lib.RollingWindow`): a fill of a later day starts it afresh and a
fill of any other day is added to it. `applyRealizedFill_ok` is the one spec lemma of a fold step.
-/

namespace Veridex.DustExecution

open Veridex.Py Veridex.Policy
open Veridex.Lib.RollingWindow (Window)

/-! ## Realized fills -/

/-- `RealizedFillRecord.VENUE_SOURCE`. -/
def venueSource : String := "venue_reconciled"

/-- `RealizedFillRecord`, after `__post_init__`. The source is pinned to `venueSource`. -/
structure RealizedFillRecord where
  realizedPnl : ℚ
  fee : ℚ
  fee_nonneg : 0 ≤ fee
  sessionId : String
  fillTsMs : ℤ

/-- `RealizedFillRecord(...)`: the checks of `__post_init__`, in order. -/
def mkRealizedFillRecord (realizedPnl fee : PyFloat) (sessionId : String) (fillTsMs : ℤ)
    (source : String) : Except PyExc RealizedFillRecord :=
  match realizedPnl, fee with
  | .fin pnl, .fin fee =>
    if h : 0 ≤ fee then
      if source = venueSource then .ok ⟨pnl, fee, h, sessionId, fillTsMs⟩
      else .error ⟨.failClosed, "RealizedFillRecord admits ONLY a real 'venue_reconciled' source"⟩
    else .error ⟨.valueError, "fee must be >= 0"⟩
  | .fin _, _ => .error ⟨.valueError, "fee must be finite"⟩
  | _, _ => .error ⟨.valueError, "realized_pnl must be finite"⟩

/-- `net_pnl`: the fee-inclusive signed PnL. -/
def RealizedFillRecord.netPnl (fill : RealizedFillRecord) : ℚ := fill.realizedPnl - fill.fee

/-- `PaperReceipt`: a simulated fill. -/
structure PaperReceipt where
  simulatedPnl : ℚ
  sessionId : String

/-- What a caller may hand to `apply_realized_fill`. -/
inductive FillSource where
  | realized (fill : RealizedFillRecord)
  | paper (receipt : PaperReceipt)

/-- `_utc_day`: the UTC day of an epoch-millisecond timestamp. -/
def utcDay (tsMs : ℤ) : Except PyExc ℤ := (DateTime.fromTimestampMs tsMs).map DateTime.utcDay

/-- The day of a timestamp `utcDay` accepts. -/
def dayOf (tsMs : ℤ) : ℤ := tsMs / 86400000

theorem utcDay_ok {tsMs d : ℤ} : utcDay tsMs = .ok d ↔
    (minTimestampMs ≤ tsMs ∧ tsMs < maxTimestampMs) ∧ dayOf tsMs = d := by
  have hday : tsMs * 1000 / 86400000000 = tsMs / 86400000 := by omega
  unfold utcDay DateTime.fromTimestampMs DateTime.utcDay dayOf
  split
  · rename_i h
    simp [Except.map, hday, h]
  · rename_i h
    simp [Except.map, h]

/-! ## The accumulator -/

/-- `RiskAccumulator`. -/
structure RiskAccumulator where
  sessionId : String
  netSession : ℚ
  netDay : ℚ
  currentDay : Option ℤ
  deriving DecidableEq, Repr

namespace RiskAccumulator

/-- `RiskAccumulator(session_id)`: a fresh accumulator. -/
def new (sessionId : String) : RiskAccumulator := ⟨sessionId, 0, 0, none⟩

/-- `RiskAccumulator.seeded`. The nets are sums of finite amounts, so its finiteness check, which
reads `nan` and the infinities only, has nothing to reject. -/
def seeded (sessionId : String) (netSession netDay : ℚ) (currentDay : Option ℤ) :
    RiskAccumulator :=
  ⟨sessionId, netSession, netDay, currentDay⟩

/-- The fold of `apply_realized_fill` once the type, the session and the day are known. -/
def foldFill (acc : RiskAccumulator) (fillDay : ℤ) (net : ℚ) : RiskAccumulator :=
  let rolls := match acc.currentDay with
    | none => true
    | some day => decide (day < fillDay)
  { acc with
    currentDay := if rolls then some fillDay else acc.currentDay
    netDay := (if rolls then 0 else acc.netDay) + net
    netSession := acc.netSession + net }

/-- `apply_realized_fill`. Nothing is folded when it raises. -/
def applyRealizedFill (acc : RiskAccumulator) : FillSource → Except PyExc RiskAccumulator
  | .paper _ => .error ⟨.valueError,
      "RiskAccumulator only admits a real venue-reconciled RealizedFillRecord"⟩
  | .realized fill =>
    if fill.sessionId ≠ acc.sessionId then
      .error ⟨.failClosed, "fill session_id does not match accumulator session"⟩
    else do
      let fillDay ← utcDay fill.fillTsMs
      return acc.foldFill fillDay fill.netPnl

/-- `realized_loss_session`. -/
def realizedLossSession (acc : RiskAccumulator) : ℚ := max 0 (-acc.netSession)

/-- `realized_loss_day`. -/
def realizedLossDay (acc : RiskAccumulator) : ℚ := max 0 (-acc.netDay)

/-- `breaches_caps`. -/
def breachesCaps (acc : RiskAccumulator) (envelope : PolicyEnvelope) : Bool :=
  capBreached envelope.maxSessionLoss acc.realizedLossSession ||
    capBreached envelope.maxDailyLoss acc.realizedLossDay

/-- **One fold step**: when it returns, the fill is the session's and its day is known, and the
accumulator is the folded one. -/
theorem applyRealizedFill_ok {acc acc' : RiskAccumulator} {fill : RealizedFillRecord} :
    acc.applyRealizedFill (.realized fill) = .ok acc' ↔
      fill.sessionId = acc.sessionId ∧ utcDay fill.fillTsMs = .ok (dayOf fill.fillTsMs) ∧
        acc' = acc.foldFill (dayOf fill.fillTsMs) fill.netPnl := by
  unfold applyRealizedFill
  by_cases hs : fill.sessionId = acc.sessionId
  · simp only [hs, ne_eq, not_true_eq_false, if_false, true_and]
    cases hd : utcDay fill.fillTsMs with
    | error e => simp [bind, Except.bind]
    | ok d =>
      have := (utcDay_ok.mp hd).2
      simp [bind, Except.bind, pure, Except.pure, ← this, eq_comm]
  · simp [hs]

@[simp] theorem foldFill_sessionId (acc : RiskAccumulator) (d : ℤ) (net : ℚ) :
    (acc.foldFill d net).sessionId = acc.sessionId := rfl

@[simp] theorem foldFill_netSession (acc : RiskAccumulator) (d : ℤ) (net : ℚ) :
    (acc.foldFill d net).netSession = acc.netSession + net := rfl

/-- The daily net is a rolling window over the UTC days. -/
theorem foldFill_window {acc : RiskAccumulator} {day : ℤ} (hday : acc.currentDay = some day)
    (d : ℤ) (net : ℚ) :
    (acc.foldFill d net).currentDay = some (Window.push ⟨day, acc.netDay⟩ (d, net)).key ∧
      (acc.foldFill d net).netDay = (Window.push ⟨day, acc.netDay⟩ (d, net)).total := by
  by_cases h : day < d <;> simp [foldFill, hday, Window.push, h]

end RiskAccumulator

/-! ## Mode B admission -/

/-- The check `authorize_mode_b` makes of each loss cap. -/
def requireFinitePositive (name : String) (cap : PyFloat) : Except PyExc Unit :=
  if !cap.isFinite || cap.le (.fin 0) then
    .error ⟨.failClosed, "Mode B requires a finite positive " ++ name ++ "; refusing to arm"⟩
  else .ok ()

/-- `authorize_mode_b`: both envelope loss caps must be finite and positive. -/
def authorizeModeB (envelope : PolicyEnvelope) : Except PyExc Unit := do
  requireFinitePositive "max_session_loss" envelope.maxSessionLoss
  requireFinitePositive "max_daily_loss" envelope.maxDailyLoss

theorem requireFinitePositive_ok {name : String} {cap : PyFloat} :
    requireFinitePositive name cap = .ok () ↔ FinitePositive cap := by
  unfold requireFinitePositive FinitePositive
  cases cap with
  | fin q => simp
  | nan | negInf | posInf => simp [PyFloat.isFinite]

/-- **`authorize_mode_b` returns exactly on two finite positive loss caps.** -/
theorem authorizeModeB_ok {envelope : PolicyEnvelope} : authorizeModeB envelope = .ok () ↔
    FinitePositive envelope.maxSessionLoss ∧ FinitePositive envelope.maxDailyLoss := by
  have hsession : requireFinitePositive "max_session_loss" envelope.maxSessionLoss = .ok () ↔ _ :=
    requireFinitePositive_ok
  have hdaily : requireFinitePositive "max_daily_loss" envelope.maxDailyLoss = .ok () ↔ _ :=
    requireFinitePositive_ok
  rw [← hsession, ← hdaily, authorizeModeB]
  cases requireFinitePositive "max_session_loss" envelope.maxSessionLoss with
  | error e => simp [bind, Except.bind]
  | ok u => simp [bind, Except.bind]

end Veridex.DustExecution
