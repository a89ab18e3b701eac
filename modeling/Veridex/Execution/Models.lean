import Veridex.Py.Value

/-!
# Execution records (`execution/models.py`)

An order's record walks a table of allowed transitions; a terminal status has none out of it.

Result: `advance_ok` (what a transition allows and does).
-/

namespace Veridex.Execution

open Veridex.Py

/-- `ExecutionStatus`. -/
inductive ExecutionStatus where
  | proposed
  | lawApproved
  | awaitingHuman
  | policyApproved
  | submitted
  | accepted
  | rejected
  | filled
  | partialFill
  | cancelled
  | expired
  | settled
  | voided
  | unresolved
  deriving DecidableEq, Repr

namespace ExecutionStatus

/-- The status's value. -/
def text : ExecutionStatus → String
  | proposed => "proposed"
  | lawApproved => "law_approved"
  | awaitingHuman => "awaiting_human"
  | policyApproved => "policy_approved"
  | submitted => "submitted"
  | accepted => "accepted"
  | rejected => "rejected"
  | filled => "filled"
  | partialFill => "partial"
  | cancelled => "cancelled"
  | expired => "expired"
  | settled => "settled"
  | voided => "voided"
  | unresolved => "unresolved"

/-- `_NEXT_EXEC`. -/
def nextExec : ExecutionStatus → List ExecutionStatus
  | proposed => [lawApproved, rejected]
  | lawApproved => [policyApproved, awaitingHuman, rejected]
  | awaitingHuman => [policyApproved, rejected]
  | policyApproved => [submitted, rejected]
  | submitted => [accepted, rejected, expired]
  | accepted => [filled, partialFill, cancelled, expired]
  | filled => [settled, voided, unresolved]
  | partialFill => [settled, voided, unresolved]
  | rejected | cancelled | expired | settled | voided | unresolved => []

end ExecutionStatus

/-- `ExecutionReceipt`. -/
structure ExecutionReceipt where
  executionId : String
  venue : String
  marketRef : String
  side : String
  requestedSize : PyFloat
  filledSize : PyFloat
  price : PyFloat
  status : ExecutionStatus
  venueOrderId : Option String
  mode : String
  submittedAt : Option String := none
  settledAt : Option String := none
  deriving DecidableEq, Repr

/-- `ExecutionRecord`. -/
structure ExecutionRecord where
  executionId : String
  competitionId : String
  runId : String
  agentId : String
  sourceSequenceNo : ℤ
  status : ExecutionStatus
  policyHash : String
  receipt : Option ExecutionReceipt := none
  deriving DecidableEq, Repr

/-- `ExecutionTransitionError`. -/
def transitionError (status new : ExecutionStatus) : PyExc :=
  ⟨.valueError, "illegal execution transition: " ++ status.text ++ " -> " ++ new.text⟩

/-- `advance`. -/
def ExecutionRecord.advance (record : ExecutionRecord) (new : ExecutionStatus) :
    Except PyExc ExecutionRecord :=
  if new ∈ record.status.nextExec then .ok { record with status := new }
  else .error (transitionError record.status new)

/-- `_advance_through`. -/
def ExecutionRecord.advanceThrough (record : ExecutionRecord) (path : List ExecutionStatus) :
    Except PyExc ExecutionRecord := path.foldlM ExecutionRecord.advance record

theorem advance_ok {record record' : ExecutionRecord} {new : ExecutionStatus} :
    record.advance new = .ok record' ↔
      new ∈ record.status.nextExec ∧ record' = { record with status := new } := by
  unfold ExecutionRecord.advance
  split_ifs with h
  · simp [h, eq_comm]
  · simp [h]

end Veridex.Execution
