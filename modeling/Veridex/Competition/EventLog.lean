import Veridex.Competition.Events
import Veridex.Strategies.Value

/-!
# The event log of a sealed run (`competition/events.py`, `build_event_log`)

A sealed run is projected to the competition's log: the start, one evidence event for each sealed event,
and the derived tail. The live sink builds its events with the same `buildEvidenceEvent`, and carries
the clock of the last tick.

A score row's agent that is no text, and a tick that is no int, are refused: no sealed decision has such
a key. A mean is exact here.
-/

namespace Veridex.Competition

open Veridex.Py Veridex.Lib Veridex.Runtime Veridex.Law Veridex.Scoring
open Veridex.Strategies (loadsOrEmpty orEmpty)

section

variable (format : Json.FloatFormat PyFloat)

/-! ## Evidence -/

/-- `_tick_ts`. -/
def tickTs (stateSnapshotJson : Option String) : Except PyExc (Option ℤ) := do
  match ← (← loadsOrEmpty format stateSnapshotJson).get "ts" .null with
  | .null => return none
  | ts => return some (← ts.toInt)

/-- `v.keys()`. -/
def keysOf : Decoded → Except PyExc (List String)
  | .obj fields => .ok (fields.map Prod.fst)
  | _ => .error ⟨.attributeError, "object has no attribute 'keys'"⟩

/-- `_tick_payload`. -/
def tickPayload (stateSnapshotJson : Option String) : Except PyExc Params :=
  if stateSnapshotJson.getD "" = "" then .ok []
  else do
    let snapshot ← loadsOrEmpty format stateSnapshotJson
    let markets ← keysOf (orEmpty (← snapshot.get "markets" (.obj [])))
    return [("tick_seq", ← snapshot.get "tick_seq" .null), ("ts", ← snapshot.get "ts" .null),
      ("phase", ← snapshot.get "phase" .null),
      ("markets", .arr ((markets.mergeSort fun a b => a ≤ b).map .str))]

/-- `_action_payload`. -/
def actionPayload (runEvent : RunEvent) : Except PyExc Params := do
  let result ← loadsOrEmpty format runEvent.resultPayloadJson
  let agentId ← result.get "agent_id" .null
  if runEvent.eventType = .error then
    return [("error", .bool true), ("agent_id", agentId), ("message", ← result.get "message" .null)]
  else do
    let action ← loadsOrEmpty format runEvent.actionPayloadJson
    let params := orEmpty (← action.get "params" (.obj []))
    return [("agent_id", agentId), ("action", ← action.get "type" .null),
      ("market_key", ← params.get "market_key" .null), ("side", ← params.get "side" .null)]

variable (sha256 : List Char → String)

/-- What is shown of a sealed event, under its type. -/
def evidencePayload (runEvent : RunEvent) : Except PyExc (EventType × Params) :=
  match runEvent.eventType with
  | .tick => do return (.marketTick, ← tickPayload format runEvent.stateSnapshotJson)
  | .decision | .error => do return (.agentAction, ← actionPayload format runEvent)
  | .windowConfig => do
    match ← loadsOrEmpty format runEvent.resultPayloadJson with
    | .obj config => return (.windowConfig, config)
    | _ => .error ⟨.valueError, "validation error for CompetitionEvent"⟩

/-- The clock after a sealed event. -/
def nextTickTs (currentTickTs : ℤ) (runEvent : RunEvent) : Except PyExc ℤ :=
  if runEvent.eventType = .tick then do
    return (← tickTs format runEvent.stateSnapshotJson).getD currentTickTs
  else .ok currentTickTs

/-- `build_evidence_event`. -/
def buildEvidenceEvent (competitionId runId : String) (runEvent : RunEvent) (currentTickTs : ℤ) :
    Except PyExc (CompetitionEvent × ℤ) := do
  let currentTickTs ← nextTickTs format currentTickTs runEvent
  let (eventType, payload) ← evidencePayload format runEvent
  return ({
    competitionId := competitionId
    runId := runId
    seq := runEvent.sequenceNo + 1
    eventType := eventType
    eventTs := currentTickTs
    evidence := true
    sourceSequenceNo := some runEvent.sequenceNo
    derivedFrom := []
    payload := payload
    payloadHash := eventPayloadHash format sha256 runEvent.toDict }, currentTickTs)

/-- The evidence events of some sealed events, from a clock on. -/
def evidenceEvents (competitionId runId : String) : ℤ → List RunEvent →
    Except PyExc (List CompetitionEvent)
  | _, [] => .ok []
  | currentTickTs, runEvent :: rest => do
    let (event, currentTickTs) ← buildEvidenceEvent format sha256 competitionId runId runEvent
      currentTickTs
    return event :: (← evidenceEvents competitionId runId currentTickTs rest)

/-! ## The derived events -/

/-- `build_competition_started_event`. -/
def buildCompetitionStartedEvent (competitionId runId : String) (sourceMode : SourceMode)
    (agentIds : List String) (baseTs : ℤ) : CompetitionEvent :=
  derivedEvent format sha256 .competitionStarted competitionId runId 0 baseTs "competition_meta"
    [("competition_id", .str competitionId), ("run_id", .str runId),
      ("source_mode", .str sourceMode.text), ("agent_ids", .arr (agentIds.map .str))]

/-- `build_execution_route_event`. -/
def buildExecutionRouteEvent (competitionId runId : String) (seq eventTs : ℤ) (payload : Params) :
    CompetitionEvent :=
  derivedEvent format sha256 .executionRoute competitionId runId seq eventTs "execution_route" payload

/-- An event of the tail, before it is numbered. -/
structure Derived where
  eventType : EventType
  payload : Params
  derivedFrom : List String

/-- `_emit_derived`, of all of them. -/
def numbered (competitionId runId : String) (baseTs : ℤ) (derivedSeq : ℤ) (tail : List Derived) :
    List CompetitionEvent :=
  tail.mapIdx fun i derived => {
    competitionId := competitionId
    runId := runId
    seq := derivedSeq + i
    eventType := derived.eventType
    eventTs := baseTs
    evidence := false
    sourceSequenceNo := none
    derivedFrom := derived.derivedFrom
    payload := derived.payload
    payloadHash := eventPayloadHash format sha256 derived.payload }

/-- A score row under its agent and its tick. -/
structure KeyedRow where
  agentId : String
  tickSeq : ℤ
  row : Params

/-- `r["agent_id"], r["tick_seq"]`. -/
def keyedRow (row : Params) : Except PyExc KeyedRow := do
  let agentId ← agentIdOf row
  match ← Decoded.item (.obj row) (.str "tick_seq") with
  | .int tickSeq => return ⟨agentId, tickSeq, row⟩
  | _ => .error ⟨.typeError, "'<' not supported"⟩

/-- A row's reference. -/
def KeyedRow.reference (keyed : KeyedRow) : String :=
  "score_row:" ++ keyed.agentId ++ ":tick-" ++ String.ofList (Json.intText keyed.tickSeq)

/-- The `LAW_RESULT` of a row. -/
def lawResult (keyed : KeyedRow) : Except PyExc Derived := do
  let clvField := if (keyed.row.lookup "window_clv_bps").isSome then "window_clv_bps" else "clv_bps"
  let valueOf (name : String) : Except PyExc Decoded := Decoded.item (.obj keyed.row) (.str name)
  return {
    eventType := .lawResult
    payload := [("agent_id", .str keyed.agentId), ("tick_seq", .int keyed.tickSeq),
      (clvField, ← valueOf clvField), ("valid", ← valueOf "valid"), ("reason", ← valueOf "reason"),
      ("recomputed_edge_bps", ← valueOf "recomputed_edge_bps")]
    derivedFrom := [keyed.reference] }

/-- A mean that may be absent. -/
def meanJson : Option ℚ → Decoded
  | none => .null
  | some q => .float (.fin q)

/-- The `SCORE_UPDATE` of an agent, with its rows in the order of their ticks. -/
def scoreUpdate (proofModeMap : Params) (agentId : String) (rows : List KeyedRow) :
    Except PyExc Derived := do
  let clvs := (rows.filter (isScored ·.row)).map fun keyed => (intValue keyed.row "clv_bps").getD 0
  let valid ← rows.mapM fun keyed => Decoded.item (.obj keyed.row) (.str "valid")
  let meanClv ← average clvs.sum clvs.length
  let windowClvs := rows.filterMap fun keyed => intValue keyed.row "window_clv_bps"
  let meanWindowClv ← average windowClvs.sum windowClvs.length
  return {
    eventType := .scoreUpdate
    payload := [("agent_id", .str agentId), ("proof_mode", field proofModeMap agentId),
      ("scored_count", .int rows.length), ("valid_count", .int (valid.countP (·.truthy))),
      ("total_clv_bps", .int clvs.sum), ("mean_clv_bps", meanJson meanClv),
      ("total_window_clv_bps", .int windowClvs.sum), ("mean_window_clv_bps", meanJson meanWindowClv)]
    derivedFrom := rows.map KeyedRow.reference }

/-- The rows of each agent, in the order of the agents and of the ticks. -/
def rowsOfAgents (rows : List KeyedRow) : List (String × List KeyedRow) :=
  ((rows.map (·.agentId)).eraseDups.mergeSort fun a b => a ≤ b).map fun agentId =>
    (agentId, (rows.filter (·.agentId = agentId)).mergeSort fun a b => a.tickSeq ≤ b.tickSeq)

/-- `(agent_id, tick_seq)`, in order. -/
def KeyedRow.le (a b : KeyedRow) : Bool :=
  decide (a.agentId < b.agentId ∨ a.agentId = b.agentId ∧ a.tickSeq ≤ b.tickSeq)

/-- `competition_meta`. -/
structure CompetitionMeta where
  competitionId : String
  anchorStatus : String := "not_anchored"
  eventTs : ℤ := 0

/-- The derived tail. -/
def derivedTail (runResult : RunResult) (competitionMeta : CompetitionMeta) :
    Except PyExc (List Derived) := do
  let rows ← runResult.scoreRows.mapM keyedRow
  let lawResults ← (rows.mergeSort KeyedRow.le).mapM lawResult
  let scoreUpdates ← (rowsOfAgents rows).mapM fun (agentId, agentRows) =>
    scoreUpdate runResult.proofModeMap agentId agentRows
  return lawResults ++ scoreUpdates ++ [
    { eventType := .proofAnchor
      payload := [("anchor_status", .str competitionMeta.anchorStatus),
        ("evidence_hash", .str runResult.evidenceHash)]
      derivedFrom := ["evidence_hash"] },
    { eventType := .competitionFinalized
      payload := [("competition_id", .str competitionMeta.competitionId),
        ("run_id", .str runResult.runId), ("agent_count", .int runResult.agentIds.length),
        ("scored_count", .int runResult.scoreRows.length)]
      derivedFrom := ["run:" ++ runResult.runId] }]

/-- `build_event_log`. -/
def buildEventLog (runResult : RunResult) (competitionMeta : CompetitionMeta) :
    Except PyExc (List CompetitionEvent) := do
  let started := buildCompetitionStartedEvent format sha256 competitionMeta.competitionId
    runResult.runId runResult.sourceMode runResult.agentIds competitionMeta.eventTs
  let evidence ← evidenceEvents format sha256 competitionMeta.competitionId runResult.runId
    competitionMeta.eventTs (runResult.runEvents.mergeSort fun a b => a.sequenceNo ≤ b.sequenceNo)
  let tail ← derivedTail runResult competitionMeta
  return started :: evidence ++ numbered format sha256 competitionMeta.competitionId runResult.runId
    competitionMeta.eventTs (runResult.runEvents.length + 1) tail

end

/-- `replay_from`. -/
def replayFrom (events : List CompetitionEvent) (sinceSeq : ℤ) : List CompetitionEvent :=
  (events.filter fun event => sinceSeq < event.seq).mergeSort fun a b => a.seq ≤ b.seq

end Veridex.Competition
