import Veridex.Execution.Runner
import Veridex.Lib.Task
import Veridex.Store.InMemory

/-!
# The calls of an endpoint

An endpoint is a task over the in-memory store: it awaits the methods of the store, which are one step
each, and the world outside, in `V`. Any of them may raise at the await.
-/

namespace Veridex.Api

open Veridex.Competition Veridex.Lib Veridex.Py Veridex.Store
open Veridex.Execution (Answer Await ExecutionRecord Shell)
open Veridex.Scoring (RunResult)

/-- A method of the store, with its arguments. -/
inductive StoreCall where
  | persistRun (run : RunResult)
  | loadRun (runId : String)
  | createCompetition (competition : Competition)
  | getCompetition (competitionId : String)
  | addAgentEntryGuarded (competitionId : String) (entry : AgentEntry)
  | updateCompetitionStatus (competitionId : String) (status : CompetitionStatus)
  | claimCompetitionRun (competitionId : String) (expected new : CompetitionStatus) (runId : String)
  | releaseCompetitionRun (competitionId : String) (expected new : CompetitionStatus)
  | updateCompetitionRunId (competitionId runId : String)
  | updateCompetitionConfig (competitionId : String) (config : CompetitionConfig)
  | updateCompetitionReplayBinding (competitionId : String) (binding : ReplayBinding)
  | appendCompetitionEvents (competitionId : String) (events : List CompetitionEvent)
  | listCompetitionEvents (competitionId : String) (sinceSeq : ℤ)
  | appendExecutionRecord (record : ExecutionRecord)
  | getExecutionRecord (executionId : String)

/-- What an endpoint awaits. -/
inductive Call (V : Type) where
  | store (method : StoreCall)
  | outside (question : V)

/-- A task of an endpoint. -/
abbrev Endpoint (V R α : Type) := Task InMemoryStore (Call V) R Raised α

variable {V R α : Type}

/-- A method of the store, awaited. -/
def await (name : StoreCall) (method : Method α) : Endpoint V R α := .perform (.store name) method

def persistRun (run : RunResult) : Endpoint V R Unit :=
  await (.persistRun run) (InMemoryStore.persistRun run)

def loadRun (runId : String) : Endpoint V R RunResult :=
  await (.loadRun runId) (InMemoryStore.loadRun runId)

def getCompetition (competitionId : String) : Endpoint V R Competition :=
  await (.getCompetition competitionId) (InMemoryStore.getCompetition competitionId)

def addAgentEntryGuarded (competitionId : String) (entry : AgentEntry)
    (mutableStatuses : List CompetitionStatus) : Endpoint V R Unit :=
  await (.addAgentEntryGuarded competitionId entry)
    (InMemoryStore.addAgentEntryGuarded competitionId entry mutableStatuses)

def updateCompetitionStatus (competitionId : String) (status : CompetitionStatus) :
    Endpoint V R Unit :=
  await (.updateCompetitionStatus competitionId status)
    (InMemoryStore.updateCompetitionStatus competitionId status)

def claimCompetitionRun (competitionId : String) (expected new : CompetitionStatus) (runId : String) :
    Endpoint V R Unit :=
  await (.claimCompetitionRun competitionId expected new runId)
    (InMemoryStore.claimCompetitionRun competitionId expected new runId)

def releaseCompetitionRun (competitionId : String) (expected new : CompetitionStatus) :
    Endpoint V R Unit :=
  await (.releaseCompetitionRun competitionId expected new)
    (InMemoryStore.releaseCompetitionRun competitionId expected new)

def updateCompetitionRunId (competitionId runId : String) : Endpoint V R Unit :=
  await (.updateCompetitionRunId competitionId runId)
    (InMemoryStore.updateCompetitionRunId competitionId runId)

def updateCompetitionConfig (competitionId : String) (config : CompetitionConfig) :
    Endpoint V R Unit :=
  await (.updateCompetitionConfig competitionId config)
    (InMemoryStore.updateCompetitionConfig competitionId config)

def appendCompetitionEvents (competitionId : String) (events : List CompetitionEvent) :
    Endpoint V R Unit :=
  await (.appendCompetitionEvents competitionId events)
    (InMemoryStore.appendCompetitionEvents competitionId events)

def listCompetitionEvents (competitionId : String) (sinceSeq : ℤ) :
    Endpoint V R (List CompetitionEvent) :=
  await (.listCompetitionEvents competitionId sinceSeq)
    (InMemoryStore.listCompetitionEvents competitionId sinceSeq)

def appendExecutionRecord (record : ExecutionRecord) : Endpoint V R Unit :=
  await (.appendExecutionRecord record) (InMemoryStore.appendExecutionRecord record)

def getExecutionRecord (executionId : String) : Endpoint V R ExecutionRecord :=
  await (.getExecutionRecord executionId) (InMemoryStore.getExecutionRecord executionId)

/-- `except KeyError: raise HTTPException(404)`. -/
def notFound (detail : String) : Raised → Endpoint V R α
  | .keyError _ => .raise (.http 404 detail)
  | e => .raise e

theorem notFound_raises (detail : String) (e : Raised) :
    ∃ e', (notFound detail e : Endpoint V R α) = .raise e' := by
  cases e with
  | keyError _ => exact ⟨_, rfl⟩
  | valueError _ | rosterAdmission _ | statusClaim _ | conflict _ | integrity _ | http _ _
  | other _ => exact ⟨_, rfl⟩

/-- `try: t except Exception as e: handler(e)`. -/
def catchingException (t : Endpoint V R α) (handler : Raised → Endpoint V R α) : Endpoint V R α :=
  t.catching fun e => if e.isException then handler e else .raise e

/-- A call of the store whose `KeyError` is a 404. -/
def orNotFound (detail : String) (t : Endpoint V R α) : Endpoint V R α :=
  t.catching (notFound detail)

/-- `_check_owner`. -/
def checkOwner (competition : Competition) (principal : Option String) : Endpoint V R Unit :=
  match competition.config.operatorId with
  | none => return ()
  | some owner =>
    if some owner = principal then return ()
    else .raise (.http 403 "operator does not own this competition")

/-! ## The execution lane as a task -/

/-- An answer that is not read. -/
def noAnswer : Answer where
  quote := { marketRef := "", price := .fin 0, size := .fin 0, ts := 0 }
  ack := ⟨"", false⟩
  status := { venueOrderId := "", status := "", filledSize := .fin 0, price := .fin 0 }
  receipt := {
    executionId := ""
    venue := ""
    marketRef := ""
    side := ""
    requestedSize := .fin 0
    filledSize := .fin 0
    price := .fin 0
    status := .unresolved
    venueOrderId := none
    mode := "" }

/-- What the shell awaits: a record goes to the store, the rest is outside. -/
def ofAwait : Await → Endpoint Await Answer Answer
  | .appendExecutionRecord record => do
    appendExecutionRecord record
    return noAnswer
  | question => .request (.outside question)

/-- A computation of the shell, as a task. -/
def ofShell (shell : Shell α) : Endpoint Await Answer α := Task.interpret .other ofAwait shell

end Veridex.Api
