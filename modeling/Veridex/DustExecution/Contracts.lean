import Veridex.Py.Basic

/-!
# The typed lifecycle events (`dust_execution/contracts.py`)

The closed vocabularies and the events of the numbered lifecycle stream. `event_type` repeats the
class of an event and is checked against it on construction, so it is the constructor here. A price
of an event is a native probability: `UnitPrice` carries the bounds the validator checks.
-/

namespace Veridex.DustExecution

open Veridex.Py

/-! ## Closed literal sets -/

/-- `EvidenceClass`. -/
inductive EvidenceClass where
  | experimentalDust
  | evidenceGated
  | promoted
  deriving DecidableEq, Repr

/-- `ExecutionMode`. -/
inductive ExecutionMode where
  | dryRun
  | liveGuarded
  deriving DecidableEq, Repr

/-- `TimeInForce`. -/
inductive TimeInForce where
  | fak
  | fok
  | gtc
  | gtd
  deriving DecidableEq, Repr

/-- `OrderStatus`. -/
inductive OrderStatus where
  | partiallyFilled
  | filled
  | rejected
  | expired
  | unresolved
  deriving DecidableEq, Repr

/-- `UncertainState`. `UncertainSubmitState` of `reconcile.py` is the same set, spelled with an
underscore; `_RECONCILED_STATE` maps one to the other. -/
inductive UncertainState where
  | resolved
  | definitivelyAbsent
  | ambiguous
  deriving DecidableEq, Repr

/-- The values the runner gives `OrderAckEvent.ack_status`. -/
inductive AckStatus where
  | accepted
  | notAccepted
  | dryRunNotSubmitted
  deriving DecidableEq, Repr

/-- A native probability. -/
def UnitPrice : Type := {price : ℚ // 0 ≤ price ∧ price ≤ 1}
  deriving DecidableEq

/-- `_reject_price_out_of_unit_interval`. -/
def rejectPriceOutOfUnitInterval (value : ℚ) : Except PyExc ℚ :=
  if 0 ≤ value ∧ value ≤ 1 then .ok value
  else .error ⟨.valueError, "price must be a native probability in [0, 1]"⟩

/-- The price validator of an event: `nan` and the infinities are out of the interval too. -/
def UnitPrice.ofFloat : PyFloat → Except PyExc UnitPrice
  | .fin q =>
    if h : 0 ≤ q ∧ q ≤ 1 then .ok ⟨q, h⟩
    else .error ⟨.valueError, "price must be a native probability in [0, 1]"⟩
  | _ => .error ⟨.valueError, "price must be a native probability in [0, 1]"⟩

/-! ## Events -/

/-- `_EventEnvelope`. -/
structure EventEnvelope where
  sequenceNo : ℕ
  sourceTs : Option ℤ
  recvTs : ℤ
  deriving DecidableEq, Repr

/-- `SessionRiskSnapshot`. -/
structure SessionRiskSnapshot extends EventEnvelope where
  decisionId : Option String
  realizedLossSession : ℚ
  realizedLossDaily : ℚ
  openOrderCount : ℕ
  breakerOpen : Bool
  killSwitchEngaged : Bool
  deriving DecidableEq, Repr

/-- `OrderSubmitIntent`. -/
structure OrderSubmitIntent extends EventEnvelope where
  tokenId : String
  side : String
  price : UnitPrice
  size : ℚ
  tif : TimeInForce
  clientOrderId : String
  decisionId : String
  decisionTs : ℤ
  deriving DecidableEq

/-- `PreSubmitRecord`. -/
structure PreSubmitRecord where
  integrityCommitmentHash : String
  venueOrderKey : String
  capturedId : Option String := none
  deriving DecidableEq, Repr

/-- `OrderSubmitAttempt`. -/
structure OrderSubmitAttempt extends EventEnvelope where
  decisionId : String
  clientOrderId : String
  requestPayloadRef : String
  attemptTs : ℤ
  presubmitRecord : PreSubmitRecord
  deriving DecidableEq, Repr

/-- `OrderAckEvent`. -/
structure OrderAckEvent extends EventEnvelope where
  decisionId : String
  clientOrderId : String
  venueOrderId : Option String
  ackStatus : AckStatus
  deriving DecidableEq, Repr

/-- `OrderStatusEvent`. -/
structure OrderStatusEvent extends EventEnvelope where
  decisionId : String
  clientOrderId : String
  venueOrderId : Option String
  status : OrderStatus
  filledSize : ℚ
  fillPrice : Option UnitPrice
  deriving DecidableEq

/-- `OrderCancelEvent`. -/
structure OrderCancelEvent extends EventEnvelope where
  decisionId : Option String
  clientOrderId : String
  venueOrderId : Option String
  canceled : Bool
  deriving DecidableEq, Repr

/-- `RealFillReconciliation`. -/
structure RealFillReconciliation extends EventEnvelope where
  decisionId : String
  venueOrderKey : String
  reconciledState : UncertainState
  reconciledFillSize : ℚ
  deriving DecidableEq, Repr

/-- `DustRunLabelEvent`. Its other three labels are pinned to one literal each. -/
structure DustRunLabelEvent extends EventEnvelope where
  evidenceClass : EvidenceClass
  deriving DecidableEq, Repr

/-- `LifecycleEvent`: the union the runner emits. -/
inductive LifecycleEvent where
  | sessionRiskSnapshot (event : SessionRiskSnapshot)
  | orderSubmitIntent (event : OrderSubmitIntent)
  | orderSubmitAttempt (event : OrderSubmitAttempt)
  | orderAckEvent (event : OrderAckEvent)
  | orderCancelEvent (event : OrderCancelEvent)
  | orderStatusEvent (event : OrderStatusEvent)
  | realFillReconciliation (event : RealFillReconciliation)
  | dustRunLabelEvent (event : DustRunLabelEvent)
  deriving DecidableEq

end Veridex.DustExecution
