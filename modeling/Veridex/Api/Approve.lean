import Veridex.Api.Calls

/-!
# The approval endpoint (`api/router.py`, `approve_execution_endpoint`)

The record is read, the competition and the run are loaded, the tail of the log is listed, the approval
is resolved, and its events are appended and broadcast. The record that is resolved is the copy that was
read first.
-/

namespace Veridex.Api

open Veridex.Competition Veridex.Lib Veridex.Policy Veridex.Py Veridex.Scoring
open Veridex.Execution (Adapter Answer Approval Await ExecutionRecord ExecutionStatus Resolution)

/-- `FakeVenueAdapter()`. -/
def fakeVenueAdapter : Adapter where
  venue := none
  className := "FakeVenueAdapter"

/-- `SXBetAdapter()`. -/
def sxBetAdapter : Adapter where
  venue := none
  className := "SXBetAdapter"

/-- What the lane reads of an entry. -/
def laneEntry (entry : AgentEntry) : Execution.AgentEntry where
  agentId := entry.agentId
  executionEligibility := entry.executionEligibility

/-- `max((e.seq for e in existing), default=-1) + 1`. -/
def nextSeq (existing : List CompetitionEvent) : ℤ :=
  existing.foldl (fun last event => max last event.seq) (-1) + 1

/-- `ApprovalResponse`. -/
structure ApprovalResponse where
  executionId : String
  decision : String
  status : ExecutionStatus

section

variable (format : Json.FloatFormat PyFloat) (sha256 : List Char → String)
  (policyHash : PolicyEnvelope → String)

/-- The approval of a record, at the end of a log. -/
def approvalOf (record : ExecutionRecord) (competition : Competition) (runResult : RunResult)
    (existing : List CompetitionEvent) (principal note : Option String) : Approval where
  record := record
  runResult := runResult
  envelope := envelopeOf competition
  adapter := if competition.config.executionMode = .dryRun then fakeVenueAdapter else sxBetAdapter
  entry := (competition.entries.find? (·.agentId = record.agentId)).map laneEntry
  executionMode := competition.config.executionMode.text
  baseSeq := nextSeq existing
  eventTs := 0
  approverId := principal
  note := note

/-- `arena_manager.broadcast`, of each event. -/
def broadcastAll : List CompetitionEvent → Endpoint Await Answer Unit
  | [] => return ()
  | event :: events => do
    let _ ← Task.request (.outside (.broadcast event))
    broadcastAll events

/-- What is done with the record that was read. -/
def approveRecord (executionId : String) (principal note : Option String) (record : ExecutionRecord) :
    Endpoint Await Answer ApprovalResponse := do
  let competition ← orNotFound ("competition " ++ pyRepr record.competitionId ++ " not found")
    (getCompetition record.competitionId)
  checkOwner competition principal
  if record.status ≠ .awaitingHuman then
    .raise (.http 409 ("execution " ++ pyRepr executionId ++ " is not awaiting_human (status=" ++
      record.status.text ++ ")"))
  else do
    let runResult ← orNotFound ("run " ++ pyRepr record.runId ++ " not found") (loadRun record.runId)
    let existing ← listCompetitionEvents record.competitionId (-1)
    let resolution ← ofShell ((approvalOf record competition runResult existing principal
      note).resolveApproval format sha256 policyHash)
    appendCompetitionEvents record.competitionId resolution.events
    broadcastAll resolution.events
    return ⟨executionId, resolution.decision, resolution.record.status⟩

/-- `approve_execution_endpoint`. -/
def approveExecution (executionId : String) (principal note : Option String) :
    Endpoint Await Answer ApprovalResponse := do
  let record ← orNotFound ("execution " ++ pyRepr executionId ++ " not found")
    (getExecutionRecord executionId)
  approveRecord format sha256 policyHash executionId principal note record

end

end Veridex.Api
