import Veridex.Runtime.Schemas

/-!
# Events of the execution lane (`competition/events.py`)

The lane and the approvals append derived events to the competition's log: no evidence, and each with
what it derives from. The digest is taken as given.
-/

namespace Veridex.Competition

open Veridex.Py Veridex.Lib Veridex.Runtime

/-- `EventType`. -/
inductive EventType where
  | competitionStarted
  | marketTick
  | windowConfig
  | agentAction
  | lawResult
  | policyResult
  | executionSubmitted
  | executionReceipt
  | approvalAudit
  | scoreUpdate
  | proofAnchor
  | executionRoute
  | payoutStatus
  | competitionFinalized
  deriving DecidableEq, Repr

/-- `CompetitionEvent`: its canonical fields. -/
structure CompetitionEvent where
  competitionId : String
  runId : String
  seq : ℤ
  eventType : EventType
  eventTs : ℤ
  evidence : Bool
  sourceSequenceNo : Option ℤ
  derivedFrom : List String
  payload : Params
  payloadHash : String
  deriving DecidableEq

section

variable (format : Json.FloatFormat PyFloat) (sha256 : List Char → String)

/-- `event_payload_hash`. -/
def eventPayloadHash (payload : Params) : String := sha256 (serializePayload format (.obj payload))

/-- A derived event. -/
def derivedEvent (eventType : EventType) (competitionId runId : String) (seq eventTs : ℤ)
    (derivedFrom : String) (payload : Params) : CompetitionEvent where
  competitionId := competitionId
  runId := runId
  seq := seq
  eventType := eventType
  eventTs := eventTs
  evidence := false
  sourceSequenceNo := none
  derivedFrom := [derivedFrom]
  payload := payload
  payloadHash := eventPayloadHash format sha256 payload

/-- `build_policy_result_event`, of an execution. -/
def buildPolicyResultEvent (competitionId runId : String) (seq eventTs : ℤ) (agentId : String)
    (sourceSequenceNoRef : ℤ) (policyResultPayload : Params) (executionId : String) :
    CompetitionEvent :=
  derivedEvent format sha256 .policyResult competitionId runId seq eventTs
    ("score_row:" ++ agentId ++ ":seq-" ++ String.ofList (Json.intText sourceSequenceNoRef))
    (Json.setField "execution_id" (.str executionId) policyResultPayload)

/-- `build_execution_submitted_event`. -/
def buildExecutionSubmittedEvent (competitionId runId : String) (seq eventTs : ℤ)
    (executionId : String) (payload : Params) : CompetitionEvent :=
  derivedEvent format sha256 .executionSubmitted competitionId runId seq eventTs
    ("execution_record:" ++ executionId) payload

/-- `build_execution_receipt_event`. -/
def buildExecutionReceiptEvent (competitionId runId : String) (seq eventTs : ℤ)
    (executionId : String) (receiptPayload : Params) : CompetitionEvent :=
  derivedEvent format sha256 .executionReceipt competitionId runId seq eventTs
    ("execution_record:" ++ executionId) receiptPayload

/-- `build_approval_audit_event`. -/
def buildApprovalAuditEvent (competitionId runId : String) (seq eventTs : ℤ)
    (executionId : String) (auditPayload : Params) : CompetitionEvent :=
  derivedEvent format sha256 .approvalAudit competitionId runId seq eventTs
    ("execution_record:" ++ executionId) auditPayload

end

end Veridex.Competition
