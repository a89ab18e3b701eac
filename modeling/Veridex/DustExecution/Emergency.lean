import Veridex.DustExecution.Risk

/-!
# The safety session and the cancel-all primitive (`dust_execution/emergency.py`)

Every operation of `SafetyController` is an `async` method over one mutable `DustSafetySession`.
It is modelled by its segments: the code between two awaits runs without interruption, so a segment
is a pure function of the session.

* `cancelAllAndBlock` has two: `cancelAllAndBlockEnter` up to the venue's sweep and
  `cancelAllAndBlockFinish` after it. An entry on a blocked session is a no-op that answers at
  once.
* `onRealizedFill` folds the fill and checks the caps before the same sweep
  (`onRealizedFillEnter`).
* `reArm` checks the operator and the risk state (`reArmEnter`), awaits the reconciler and then
  refuses or clears (`reArmFinish`).

The clock is read once for each event an operation builds, and the reading is an argument. A raise
of the sweep or of the reconciler ends the operation with the session as it stands at the await.
-/

namespace Veridex.DustExecution

open Veridex.Py Veridex.Policy

/-- `CancelAllCause`. -/
inductive CancelAllCause where
  | breaker
  | killSwitch
  | shutdown
  | manual
  | lossBreach
  | reconciliationTimeout
  deriving DecidableEq, Repr

/-- `CancelAllTriggeredEvent`. -/
structure CancelAllTriggeredEvent where
  sequenceNo : ℕ
  recvTs : ℤ
  triggerCause : CancelAllCause
  deriving DecidableEq, Repr

/-- `CancelAllAck`. -/
structure CancelAllAck where
  sequenceNo : ℕ
  recvTs : ℤ
  triggerCause : CancelAllCause
  canceledCount : ℤ
  deriving DecidableEq, Repr

/-- `CancelAllEvent`. -/
inductive CancelAllEvent where
  | triggered (event : CancelAllTriggeredEvent)
  | ack (event : CancelAllAck)
  deriving DecidableEq, Repr

/-- `DustSafetySession`. -/
structure DustSafetySession where
  sessionId : String
  submitBlocked : Bool := false
  blockCause : Option CancelAllCause := none
  events : List CancelAllEvent := []
  lastCancelAllAck : Option CancelAllAck := none
  nextSeq : ℕ := 0
  deriving DecidableEq, Repr

namespace DustSafetySession

/-- `next_sequence_no`. -/
def nextSequenceNo (session : DustSafetySession) : ℕ × DustSafetySession :=
  (session.nextSeq, { session with nextSeq := session.nextSeq + 1 })

/-- `record_event`. -/
def recordEvent (session : DustSafetySession) (event : CancelAllEvent) : DustSafetySession :=
  { session with events := session.events ++ [event] }

end DustSafetySession

/-- `_build_triggered`. -/
def buildTriggered (recvTs : ℤ) (cause : CancelAllCause) (session : DustSafetySession) :
    CancelAllTriggeredEvent × DustSafetySession :=
  let (seq, session) := session.nextSequenceNo
  (⟨seq, recvTs, cause⟩, session)

/-- `_build_ack`. -/
def buildAck (recvTs : ℤ) (cause : CancelAllCause) (canceledCount : ℤ)
    (session : DustSafetySession) : CancelAllAck × DustSafetySession :=
  let (seq, session) := session.nextSequenceNo
  (⟨seq, recvTs, cause, canceledCount⟩, session)

/-- Where `cancel_all_and_block` stands at its await, or what it returned before it. -/
inductive CancelAllEntry where
  | noop (ack : CancelAllAck) (session : DustSafetySession)
  | sweeping (session : DustSafetySession)
  deriving DecidableEq, Repr

/-- `cancel_all_and_block` up to `await adapter.cancel_all_orders()`. -/
def cancelAllAndBlockEnter (recvTs : ℤ) (cause : CancelAllCause) (session : DustSafetySession) :
    CancelAllEntry :=
  if session.submitBlocked then
    match session.lastCancelAllAck with
    | some ack => .noop ack session
    | none =>
      let (ack, session) := buildAck recvTs cause 0 session
      .noop ack session
  else
    let session := { session with submitBlocked := true, blockCause := some cause }
    let (event, session) := buildTriggered recvTs cause session
    .sweeping (session.recordEvent (.triggered event))

/-- `cancel_all_and_block` once the sweep has returned `canceledCount`. -/
def cancelAllAndBlockFinish (recvTs : ℤ) (cause : CancelAllCause) (canceledCount : ℤ)
    (session : DustSafetySession) : CancelAllAck × DustSafetySession :=
  let (ack, session) := buildAck recvTs cause canceledCount session
  let session := { session with lastCancelAllAck := some ack }
  (ack, session.recordEvent (.ack ack))

/-- `on_breaker_open`. -/
def onBreakerOpenEnter (recvTs : ℤ) : DustSafetySession → CancelAllEntry :=
  cancelAllAndBlockEnter recvTs .breaker

/-- `on_kill_switch`. -/
def onKillSwitchEnter (recvTs : ℤ) : DustSafetySession → CancelAllEntry :=
  cancelAllAndBlockEnter recvTs .killSwitch

/-- `on_loss_breach`. -/
def onLossBreachEnter (recvTs : ℤ) : DustSafetySession → CancelAllEntry :=
  cancelAllAndBlockEnter recvTs .lossBreach

/-- `on_realized_fill` up to the sweep's await: the folded accumulator, and the entry into the
sweep when a cap is breached. -/
def onRealizedFillEnter (recvTs : ℤ) (fill : FillSource) (risk : RiskAccumulator)
    (envelope : PolicyEnvelope) (session : DustSafetySession) :
    Except PyExc (RiskAccumulator × Option CancelAllEntry) := do
  let risk ← risk.applyRealizedFill fill
  if risk.breachesCaps envelope then
    return (risk, some (onLossBreachEnter recvTs session))
  else return (risk, none)

/-- `re_arm` up to `await reconciler.open_order_count()`. -/
def reArmEnter (operatorAuthorized : Bool) (risk : Option RiskAccumulator) : Except PyExc Unit :=
  if !operatorAuthorized then
    .error ⟨.reArmDenied, "re-arm requires explicit operator authorization"⟩
  else match risk with
    | none => .error ⟨.reArmDenied, "re-arm requires a reloaded risk-state (reconstruct_risk) " ++
        "before trading may resume (SAF-002c)"⟩
    | some _ => .ok ()

/-- `re_arm` once the reconciler has reported its count. -/
def reArmFinish (openOrders : ℤ) (session : DustSafetySession) :
    Except PyExc DustSafetySession :=
  if openOrders ≠ 0 then
    .error ⟨.reArmDenied, "re-arm requires zero open orders after reconciliation"⟩
  else .ok { session with submitBlocked := false, blockCause := none, lastCancelAllAck := none }

/-- `check_can_submit`. -/
def checkCanSubmit (session : DustSafetySession) : Bool := !session.submitBlocked

/-! ## What the segments do -/

section Segments

variable {recvTs : ℤ} {cause : CancelAllCause} {session session' : DustSafetySession}

/-- **An entry**: a no-op on a blocked session, which keeps its block and its recorded ack; else
the session is blocked and the sweep owed. -/
theorem cancelAllAndBlockEnter_cases (recvTs : ℤ) (cause : CancelAllCause)
    (session : DustSafetySession) :
    (∃ ack session', cancelAllAndBlockEnter recvTs cause session = .noop ack session' ∧
        session.submitBlocked = true ∧ session'.submitBlocked = true ∧
        session'.lastCancelAllAck = session.lastCancelAllAck ∧
        (session.lastCancelAllAck = some ack ∨
          (session.lastCancelAllAck = none ∧ ack.canceledCount = 0))) ∨
      ∃ session', cancelAllAndBlockEnter recvTs cause session = .sweeping session' ∧
        session.submitBlocked = false ∧ session'.submitBlocked = true ∧
        session'.lastCancelAllAck = session.lastCancelAllAck := by
  unfold cancelAllAndBlockEnter
  cases hb : session.submitBlocked with
  | false => exact .inr ⟨_, rfl, rfl, rfl, rfl⟩
  | true =>
    left
    cases hack : session.lastCancelAllAck with
    | some ack => exact ⟨ack, session, rfl, rfl, hb, hack, .inl rfl⟩
    | none => exact ⟨_, _, rfl, rfl, hb, hack, .inr ⟨rfl, rfl⟩⟩

@[simp] theorem cancelAllAndBlockFinish_blocked (n : ℤ) :
    (cancelAllAndBlockFinish recvTs cause n session).2.submitBlocked = session.submitBlocked := rfl

@[simp] theorem cancelAllAndBlockFinish_lastAck (n : ℤ) :
    (cancelAllAndBlockFinish recvTs cause n session).2.lastCancelAllAck =
      some (cancelAllAndBlockFinish recvTs cause n session).1 := rfl

@[simp] theorem cancelAllAndBlockFinish_count (n : ℤ) :
    (cancelAllAndBlockFinish recvTs cause n session).1.canceledCount = n := rfl

/-- **A re-arm clears** exactly on a reconciled book with no open order. -/
theorem reArmFinish_ok {openOrders : ℤ} : reArmFinish openOrders session = .ok session' ↔
    openOrders = 0 ∧ session' =
      { session with submitBlocked := false, blockCause := none, lastCancelAllAck := none } := by
  unfold reArmFinish
  by_cases h : openOrders = 0
  · simp [h, eq_comm]
  · simp [h]

end Segments

end Veridex.DustExecution
