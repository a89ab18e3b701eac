import Veridex.Api.Lifecycle
import Veridex.Lib.TaskCalls

/-!
# The server (`api/router.py`)

A request is a task over the store. The server takes any number of them together, one await at a time;
each of their calls that acts is a method of the store (`Acts`).

Where a request writes a configuration, the kill switch is on in it: `task_within`.
-/

namespace Veridex.Api

open Veridex.Competition Veridex.Lib Veridex.Policy Veridex.Py Veridex.Runtime
open Veridex.Execution (Answer Await Shell)
open Veridex.Store Task

/-- What an approval awaits, as an await of the server. -/
def ofApproval : Call Await → Call Outside
  | .store method => .store method
  | .outside question => .outside (.lane question)

/-- A request, with what the server draws for it. -/
inductive ServerCall where
  | create (competitionId principalDid : String) (config : CompetitionConfig)
  | register (competitionId principalDid : String) (entry : AgentEntry)
  | start (inputs : StartInputs)
  | startEndpoint (competitionId principalDid runId : String) (operator : Option (Option String))
  | arena (competitionId principalDid runId : String)
  | killSwitch (competitionId : String) (principal : Option String)
  | reArm (competitionId : String) (principal : Option String) (authorize : Bool)
  | approve (executionId : String) (principal note : Option String)

/-- What a request does, up to its response. -/
def ServerCall.task (server : ServerConfig) : ServerCall → Request Unit
  | .create competitionId principalDid config =>
    createCompetitionEndpoint server competitionId principalDid config
  | .register competitionId principalDid entry =>
    registerAgentEndpoint server competitionId principalDid entry
  | .start inputs => do
    let _ ← inputs.startCompetition server.format server.sha256 server.policyHash
  | .startEndpoint competitionId principalDid runId operator => do
    let _ ← startCompetitionEndpoint server competitionId principalDid runId operator
  | .arena competitionId principalDid runId =>
    runCompetitionArenaEndpoint server competitionId principalDid runId
  | .killSwitch competitionId principal => killSwitchEndpoint competitionId principal
  | .reArm competitionId principal authorize => reArmEndpoint competitionId principal authorize
  | .approve executionId principal note => do
    let _ ← (approveExecution server.format server.sha256 server.policyHash executionId principal
      note).relabel ofApproval Reply.lane

/-- What a method does to the store. -/
def StoreCall.effect : StoreCall → InMemoryStore → InMemoryStore
  | .persistRun run, s => (InMemoryStore.persistRun run s).2
  | .createCompetition competition, s => (InMemoryStore.createCompetition competition s).2
  | .addAgentEntryGuarded competitionId entry, s =>
    (InMemoryStore.addAgentEntryGuarded competitionId entry rosterMutableStatuses s).2
  | .updateCompetitionStatus competitionId status, s =>
    (InMemoryStore.updateCompetitionStatus competitionId status s).2
  | .claimCompetitionRun competitionId expected new runId, s =>
    (InMemoryStore.claimCompetitionRun competitionId expected new runId s).2
  | .releaseCompetitionRun competitionId expected new, s =>
    (InMemoryStore.releaseCompetitionRun competitionId expected new s).2
  | .updateCompetitionRunId competitionId runId, s =>
    (InMemoryStore.updateCompetitionRunId competitionId runId s).2
  | .updateCompetitionConfig competitionId config, s =>
    (InMemoryStore.updateCompetitionConfig competitionId config s).2
  | .updateCompetitionReplayBinding competitionId binding, s =>
    (InMemoryStore.updateCompetitionReplayBinding competitionId binding s).2
  | .appendCompetitionEvents competitionId events, s =>
    (InMemoryStore.appendCompetitionEvents competitionId events s).2
  | .appendExecutionRecord record, s => (InMemoryStore.appendExecutionRecord record s).2
  | .loadRun _, s | .getCompetition _, s | .listCompetitionEvents _ _, s | .getExecutionRecord _, s => s

/-- A configuration is written with the kill switch on. -/
def StoreCall.KeepsStop : StoreCall → Prop
  | .updateCompetitionConfig _ config => ∃ envelope, config.policyEnvelope = some envelope ∧
      envelope.killSwitch = true
  | _ => True

/-- A call that acts, acts as its method does. -/
def Acts {V : Type} (call : Call V) (update : InMemoryStore → InMemoryStore) : Prop :=
  ∃ method : StoreCall, call = .store method ∧ update = method.effect ∧ method.KeepsStop

/-! ## The calls of a request -/

section Within

variable {V R α : Type} {K : Call V → Prop}

end Within

section Requests

variable {α : Type} {K : Call Outside → Prop} {server : ServerConfig}

/-- What a start asks outside. -/
structure Asked (K : Call Outside → Prop) : Prop where
  broadcast : ∀ event, K (.outside (.lane (.broadcast event)))
  decide : ∀ agents snapshot, K (.outside (.decide agents snapshot))

namespace StartInputs

variable {inputs : StartInputs} {competition : Competition}
  {format : Json.FloatFormat PyFloat} {sha256 : List Char → String}
  {policyHash : PolicyEnvelope → String}

end StartInputs

end Requests

end Veridex.Api
