import Veridex.Competition.Events
import Veridex.Competition.Models
import Veridex.Execution.Models
import Veridex.Py.Text
import Veridex.Scoring.Metrics

/-!
# The in-memory store (`store.py`, `InMemoryStore`)

Runs, competitions, events and execution records, by their ids. A method is one step: what it returns
or raises, and the store it leaves. The store copies what it is given and what it gives, so a value read
from it is of the moment it was read.
-/

namespace Veridex.Store

open Veridex.Competition Veridex.Lib Veridex.Py
open Veridex.Execution (ExecutionRecord)
open Veridex.Scoring (RunResult)

/-- What a method or an endpoint raises, by the classes the handlers tell apart. -/
inductive Raised where
  | keyError (msg : String)
  | valueError (msg : String)
  | rosterAdmission (msg : String)
  | statusClaim (msg : String)
  | conflict (msg : String)
  | integrity (msg : String)
  | http (statusCode : ℕ) (detail : String)
  | other (e : PyExc)
  deriving DecidableEq

/-- `except Exception` catches it. -/
def Raised.isException : Raised → Bool
  | .other e => e.isException
  | _ => true

/-- `InMemoryStore`. -/
structure InMemoryStore where
  runs : String → Option RunResult
  competitions : String → Option Competition
  competitionEvents : String → List CompetitionEvent
  executionRecords : String → Option ExecutionRecord

/-- A method of the store. -/
abbrev Method (α : Type) := InMemoryStore → Except Raised α × InMemoryStore

namespace InMemoryStore

/-- A competition that must be there, and what is done to it. -/
def withCompetition {α : Type} (competitionId : String)
    (body : Competition → Except Raised (α × Competition)) : Method α := fun store =>
  match store.competitions competitionId with
  | none => (.error (.keyError ("no competition with competition_id=" ++ pyRepr competitionId)), store)
  | some competition =>
    match body competition with
    | .error e => (.error e, store)
    | .ok (a, competition) => (.ok a, { store with
        competitions := Function.update store.competitions competitionId (some competition) })

/-! ## Runs -/

/-- `persist_run`. -/
def persistRun (run : RunResult) : Method Unit := fun store =>
  (.ok (), { store with runs := Function.update store.runs run.runId (some run) })

/-- `load_run`. -/
def loadRun (runId : String) : Method RunResult := fun store =>
  match store.runs runId with
  | none => (.error (.keyError ("no run persisted with run_id=" ++ pyRepr runId)), store)
  | some run => (.ok run, store)

/-! ## Competitions -/

/-- `create_competition`. -/
def createCompetition (competition : Competition) : Method Unit := fun store =>
  if (store.competitions competition.competitionId).isSome then
    (.error (.valueError ("competition already exists: " ++ pyRepr competition.competitionId)), store)
  else (.ok (), { store with
    competitions :=
      Function.update store.competitions competition.competitionId (some competition) })

/-- `get_competition`. -/
def getCompetition (competitionId : String) : Method Competition := fun store =>
  match store.competitions competitionId with
  | none => (.error (.keyError ("no competition with competition_id=" ++ pyRepr competitionId)), store)
  | some competition => (.ok competition, store)

theorem loadRun_reads (runId : String) (store : InMemoryStore) : (loadRun runId store).2 = store := by
  rw [loadRun]
  split <;> rfl

theorem getCompetition_reads (competitionId : String) (store : InMemoryStore) :
    (getCompetition competitionId store).2 = store := by
  rw [getCompetition]
  split <;> rfl

/-- `add_agent_entry_guarded`. -/
def addAgentEntryGuarded (competitionId : String) (entry : AgentEntry)
    (mutableStatuses : List CompetitionStatus) : Method Unit :=
  withCompetition competitionId fun competition =>
    if competition.status ∉ mutableStatuses then
      .error (.rosterAdmission "roster is frozen: competition has already started")
    else if competition.entries.any fun existing => existing.agentId = entry.agentId then
      .error (.rosterAdmission ("agent " ++ pyRepr entry.agentId ++ " is already registered"))
    else if competition.config.rosterSize ≤ competition.entries.length then
      .error (.rosterAdmission ("roster is full (cap " ++ String.ofList
        (Json.intText competition.config.rosterSize) ++ ")"))
    else .ok ((), { competition with entries := competition.entries ++ [entry] })

/-- `update_competition_status`. -/
def updateCompetitionStatus (competitionId : String) (status : CompetitionStatus) : Method Unit :=
  withCompetition competitionId fun competition => .ok ((), { competition with status := status })

/-- The error of a claim that finds another status. -/
def casConflict (competitionId : String) (expected found : CompetitionStatus) : Raised :=
  .statusClaim ("CAS conflict for competition " ++ pyRepr competitionId ++ ": expected " ++
    pyRepr expected.text ++ ", found " ++ pyRepr found.text)

/-- `claim_competition_run`. -/
def claimCompetitionRun (competitionId : String) (expected new : CompetitionStatus) (runId : String) :
    Method Unit :=
  withCompetition competitionId fun competition =>
    if competition.status ≠ expected then
      .error (casConflict competitionId expected competition.status)
    else .ok ((), { competition with status := new, runId := some runId })

/-- `release_competition_run`. -/
def releaseCompetitionRun (competitionId : String) (expected new : CompetitionStatus) : Method Unit :=
  withCompetition competitionId fun competition =>
    if competition.status ≠ expected then
      .error (casConflict competitionId expected competition.status)
    else .ok ((), { competition with status := new, runId := none })

/-- `update_competition_run_id`. -/
def updateCompetitionRunId (competitionId runId : String) : Method Unit :=
  withCompetition competitionId fun competition => .ok ((), { competition with runId := some runId })

/-- `update_competition_config`. -/
def updateCompetitionConfig (competitionId : String) (config : CompetitionConfig) : Method Unit :=
  withCompetition competitionId fun competition => .ok ((), { competition with config := config })

/-- `update_competition_replay_binding`: only where there is none. -/
def updateCompetitionReplayBinding (competitionId : String) (binding : ReplayBinding) : Method Unit :=
  withCompetition competitionId fun competition =>
    .ok ((), { competition with replayBinding := competition.replayBinding.or (some binding) })

/-! ## Events -/

/-- The first number that is stored already, or comes twice. -/
def firstDuplicateSeq (stored : List ℤ) : List ℤ → Option ℤ
  | [] => none
  | seq :: rest => if seq ∈ stored then some seq else firstDuplicateSeq (seq :: stored) rest

theorem firstDuplicateSeq_eq_none {stored seqs : List ℤ} :
    firstDuplicateSeq stored seqs = none ↔ seqs.Nodup ∧ ∀ seq ∈ seqs, seq ∉ stored := by
  induction seqs generalizing stored with
  | nil => simp [firstDuplicateSeq]
  | cons seq rest ih =>
    rw [firstDuplicateSeq]
    split_ifs with h
    · simp [h]
    · rw [ih, List.nodup_cons]
      grind

/-- `append_competition_events`: the whole batch, or none of it. -/
def appendCompetitionEvents (competitionId : String) (events : List CompetitionEvent) : Method Unit :=
  fun store =>
    let stored := store.competitionEvents competitionId
    match firstDuplicateSeq (stored.map (·.seq)) (events.map (·.seq)) with
    | some seq => (.error (.valueError ("duplicate (competition_id, seq): (" ++ pyRepr competitionId ++
        ", " ++ String.ofList (Json.intText seq) ++ ")")), store)
    | none => (.ok (), { store with
        competitionEvents :=
          Function.update store.competitionEvents competitionId (stored ++ events) })

theorem appendCompetitionEvents_free {competitionId : String} {events : List CompetitionEvent}
    {store : InMemoryStore} (h : (events.map (·.seq)).Nodup ∧
      ∀ event ∈ events, event.seq ∉ (store.competitionEvents competitionId).map (·.seq)) :
    appendCompetitionEvents competitionId events store = (.ok (), { store with
      competitionEvents := Function.update store.competitionEvents competitionId
        (store.competitionEvents competitionId ++ events) }) := by
  have hnone : firstDuplicateSeq ((store.competitionEvents competitionId).map (·.seq))
      (events.map (·.seq)) = none := by
    refine firstDuplicateSeq_eq_none.mpr ⟨h.1, fun seq hseq => ?_⟩
    obtain ⟨event, hevent, rfl⟩ := List.mem_map.mp hseq
    exact h.2 event hevent
  rw [appendCompetitionEvents, hnone]

/-- `list_competition_events`. -/
def listCompetitionEvents (competitionId : String) (sinceSeq : ℤ) : Method (List CompetitionEvent) :=
  fun store => (.ok (((store.competitionEvents competitionId).mergeSort
    fun a b => a.seq ≤ b.seq).filter fun event => sinceSeq < event.seq), store)

/-! ## Execution records -/

/-- `append_execution_record`. -/
def appendExecutionRecord (record : ExecutionRecord) : Method Unit := fun store =>
  (.ok (), { store with
    executionRecords := Function.update store.executionRecords record.executionId (some record) })

/-- `get_execution_record`. -/
def getExecutionRecord (executionId : String) : Method ExecutionRecord := fun store =>
  match store.executionRecords executionId with
  | none => (.error (.keyError ("no execution record with execution_id=" ++ pyRepr executionId)), store)
  | some record => (.ok record, store)

theorem getExecutionRecord_reads (executionId : String) (store : InMemoryStore) :
    (getExecutionRecord executionId store).2 = store := by
  rw [getExecutionRecord]
  split <;> rfl

theorem getExecutionRecord_ok {executionId : String} {store : InMemoryStore}
    {record : ExecutionRecord} : (getExecutionRecord executionId store).1 = .ok record ↔
      store.executionRecords executionId = some record := by
  rw [getExecutionRecord]
  cases store.executionRecords executionId with
  | none => exact ⟨nofun, nofun⟩
  | some found => exact ⟨fun h => congrArg some (Except.ok.inj h), fun h =>
      congrArg Except.ok (Option.some.inj h)⟩

end InMemoryStore

end Veridex.Store
