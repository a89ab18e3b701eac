import Veridex.Scoring.Metrics

/-!
# The run orchestrator (`runtime/orchestrator.py`)

A `CompetitionRun` is fed snapshots and sealed by `finalize`. An agent's decision is what the
gathered call returned: an action, none, or a failure by its name and message. The sink is the list
of the events it was given.

`finalize` returns the run and the window beside its result: it numbers and emits the window's
configuration before the store is asked to persist, and sets its guard after. The digest and the
texts of floats are taken as given.
-/

namespace Veridex.Runtime

open Veridex.Py Veridex.Lib Veridex.Law Veridex.Scoring

/-- `Agent`: what a run reads of it. -/
structure Agent where
  agentId : String
  proofMode : String
  configHash : Option (MarketState → String) := none

/-- What `_decide` returns for one agent. -/
inductive Outcome where
  | acted (action : AgentAction)
  | noAction
  | failed (error message : String)

/-- `CompetitionRun`. -/
structure CompetitionRun where
  agents : List Agent
  sourceMode : SourceMode
  runId : String
  sink : Option (List RunEvent) := none
  rawEvents : List RunEvent := []
  decisions : List (Agent × AgentAction × MarketState) := []
  snapshots : List MarketState := []
  sequenceNo : ℤ := 0
  finalized : Bool := false

/-- `_closing_snapshots`: the last state that carries each market. -/
def closingSnapshots (states : List MarketState) : String → Option MarketState :=
  states.foldl (fun closing state =>
    state.markets.foldl (fun closing market => Function.update closing market.1 (some state))
      closing) fun _ => none

section

variable (format : Json.FloatFormat PyFloat)

/-- A tick event. -/
def tickBody (snapshot : MarketState) : EventBody :=
  { eventType := .tick, stateSnapshotJson := some (payloadText format snapshot.toJson) }

/-- The payload that names an agent. -/
def agentPayload (agent : Agent) (fields : List (String × Decoded)) : String :=
  payloadText format (.obj (("agent_id", .str agent.agentId) :: fields))

/-- The event an agent's outcome is recorded as. -/
def outcomeBody (agent : Agent) : Outcome → EventBody
  | .acted action =>
    { eventType := .decision
      actionPayloadJson := some (payloadText format action.toJson)
      resultPayloadJson := some (agentPayload format agent []) }
  | .noAction =>
    { eventType := .error
      resultPayloadJson := some (agentPayload format agent
        [("error", .str "NoAction"), ("message", .str "agent returned no action")]) }
  | .failed error message =>
    { eventType := .error
      resultPayloadJson := some (agentPayload format agent
        [("error", .str error), ("message", .str message)]) }

/-- The event that seals a window's configuration. -/
def windowBody (window : RunWindow) (windowEndTs : ℤ) : EventBody :=
  { eventType := .windowConfig
    resultPayloadJson := some (payloadText format (.obj
      [("end_rule", .str window.endRule.text), ("min_clv_horizon_s", .int window.minClvHorizonS),
        ("window_end_ts", .int windowEndTs)])) }

namespace CompetitionRun

/-- `_emit` of the next event, and its number. -/
def emit (run : CompetitionRun) (body : EventBody) : CompetitionRun :=
  let event : RunEvent := { body with sequenceNo := run.sequenceNo }
  { run with
    rawEvents := run.rawEvents ++ [event]
    sink := run.sink.map (· ++ [event])
    sequenceNo := run.sequenceNo + 1 }

/-- One gathered decision recorded. -/
def record (snapshot : MarketState) (run : CompetitionRun) (result : Agent × Outcome) :
    CompetitionRun :=
  match result with
  | (agent, .acted action) =>
    let run := run.emit (outcomeBody format agent (.acted action))
    { run with decisions := run.decisions ++ [(agent, action, snapshot)] }
  | (agent, outcome) => run.emit (outcomeBody format agent outcome)

/-- A snapshot taken in. -/
def tick (run : CompetitionRun) (snapshot : MarketState) : CompetitionRun :=
  { run with snapshots := run.snapshots ++ [snapshot] }.emit (tickBody format snapshot)

/-- `feed`, with what the agents' gathered decisions returned. -/
def feed (run : CompetitionRun) (snapshot : MarketState) (results : List (Agent × Outcome)) :
    Except PyExc CompetitionRun :=
  if run.finalized then .error ⟨.exception, "run already finalized"⟩
  else .ok (results.foldl (record format snapshot) (run.tick format snapshot))

/-- `feed_closing`. -/
def feedClosing (run : CompetitionRun) (snapshot : MarketState) : Except PyExc CompetitionRun :=
  if run.finalized then .error ⟨.exception, "run already finalized"⟩
  else .ok (run.tick format snapshot)

end CompetitionRun

/-! ## The seal -/

/-- The close of a windowed run that was fed: the last snapshot's clock. -/
def windowEndTs (window : Option RunWindow) (snapshots : List MarketState) : Option ℤ := do
  let _ ← window
  return (← snapshots.getLast?).ts

/-- `window.started_ts`, stamped from the first snapshot. -/
def RunWindow.stamp (snapshots : List MarketState) (window : RunWindow) : RunWindow :=
  { window with startedTs := window.startedTs.or (snapshots.head?.map (·.ts)) }

/-- The run with the window's configuration emitted. -/
def CompetitionRun.sealWindow (run : CompetitionRun) (window : Option RunWindow) :
    CompetitionRun :=
  match window, windowEndTs window run.snapshots with
  | some window, some endTs => run.emit (windowBody format window endTs)
  | _, _ => run

variable (sha256 : List Char → String)

/-- `AGENT_ACTION_SCHEMA_VERSION`. -/
def actionSchemaVersion : String := "sports_v0"

/-- `agent_config_hash`: the text of its three fields has a blank after each separator. -/
def agentConfigHash (modelId prompt schemaVersion : String) : String :=
  let field (name value : String) : List Char :=
    Json.stringText name ++ [':', ' '] ++ Json.stringText value
  sha256 ('{' :: (field "model_id" modelId ++ [',', ' '] ++ field "prompt" prompt ++ [',', ' '] ++
    field "schema_version" schemaVersion ++ ['}']))

/-- `build_raw_prescore_record`. -/
def rawPrescoreRecord (evidenceHash : String) (rawAction : Decoded) (agentId : String)
    (configHash : String) (tickSeq : ℤ) (proofMode : String) : String × Decoded :=
  let bound : List (String × Decoded) :=
    [("action_schema_version", .str actionSchemaVersion), ("agent_id", .str agentId),
      ("evidence_hash", .str evidenceHash), ("model_prompt_config_hash", .str configHash),
      ("proof_mode", .str proofMode), ("raw_action", rawAction), ("tick_seq", .int tickSeq)]
  let rawPrescoreHash := sha256 (serializePayload format (.obj bound))
  (rawPrescoreHash, .obj (("record_kind", .str "raw_prescore") ::
    ("raw_prescore_hash", .str rawPrescoreHash) :: bound))

/-- A score row, before the window's overrides. -/
def plainRow (evidenceHash : String) (decision : Agent × AgentAction × MarketState)
    (verdict : Verdict) (edgeBps : ℤ) : Params :=
  let (agent, action, snapshot) := decision
  let configHash := match agent.configHash with
    | some hash => hash snapshot
    | none => agentConfigHash sha256 agent.agentId "" actionSchemaVersion
  let (rawPrescoreHash, prescore) := rawPrescoreRecord format sha256 evidenceHash action.toJson
    agent.agentId configHash snapshot.tickSeq agent.proofMode
  [("raw_prescore_hash", .str rawPrescoreHash), ("recomputed_edge_bps", .int edgeBps),
    ("agent_id", .str agent.agentId), ("tick_seq", .int snapshot.tickSeq),
    ("proof_mode", .str agent.proofMode), ("clv_bps", verdict.clvBps),
    ("valid", .bool verdict.valid), ("reason", .str verdict.reason),
    ("kelly_fraction", .float verdict.kellyFraction), ("raw_prescore", prescore)]

/-- `row[name] = row.pop("clv_bps")`. -/
def renameClv (name : String) (row : Params) : Params :=
  row.filter (·.1 ≠ "clv_bps") ++ [(name, field row "clv_bps")]

/-- The window's overrides of a row that is scored. -/
def windowRow (window : Option RunWindow) (endTs : Option ℤ) (snapshot : MarketState)
    (row : Params) : Params :=
  match window, endTs with
  | some window, some endTs =>
    if isScored row then
      if isPendingHorizon snapshot.ts endTs window.minClvHorizonS then
        Json.setField "clv_bps" pending (Json.setField "reason" (.str "pending_horizon") row)
      else if clvFieldName window.endRule ≠ "clv_bps" then
        renameClv (clvFieldName window.endRule) row
      else row
    else row
  | _, _ => row

/-- The score row of a decision. -/
def scoreRow (run : CompetitionRun) (window : Option RunWindow) (evidenceHash : String)
    (decision : Agent × AgentAction × MarketState) : Except PyExc Params := do
  let (_, action, snapshot) := decision
  let closing ← closingFor (closingSnapshots run.snapshots) action
  let verdict ← recompute format snapshot action closing run.sourceMode
  let edgeBps ← verdict.edgeBps.toInt
  return windowRow window (windowEndTs window run.snapshots) snapshot
    (plainRow format sha256 evidenceHash decision verdict edgeBps)

/-- The result of a seal, of the emitted events. -/
def CompetitionRun.result (run : CompetitionRun) (window : Option RunWindow) :
    Except PyExc RunResult := do
  let evidenceHash ← computeEvidenceHash format sha256 (run.rawEvents.map RunEvent.toDict)
  let scoreRows ← run.decisions.mapM (scoreRow format sha256 run window evidenceHash)
  return {
    runId := run.runId
    sourceMode := run.sourceMode
    agentIds := run.agents.map (·.agentId)
    runEvents := run.rawEvents
    scoreRows := scoreRows
    evidenceHash := evidenceHash
    proofModeMap := Json.dictOf (run.agents.map fun agent => (agent.agentId, .str agent.proofMode)) }

/-- `finalize`, with what `store.persist_run` does: the run and the window are what it leaves. -/
def CompetitionRun.finalize (run : CompetitionRun) (window : Option RunWindow)
    (persist : Except PyExc Unit) : Except PyExc RunResult × CompetitionRun × Option RunWindow :=
  if run.finalized then (.error ⟨.exception, "run already finalized"⟩, run, window)
  else
    let sealedRun := run.sealWindow format window
    let stamped := window.map (RunWindow.stamp run.snapshots)
    match sealedRun.result format sha256 stamped, persist with
    | .error e, _ => (.error e, sealedRun, stamped)
    | .ok _, .error e => (.error e, sealedRun, stamped)
    | .ok result, .ok () => (.ok result, { sealedRun with finalized := true }, stamped)

end

/-! ## Runs -/

/-- A call of the driver. -/
inductive Call where
  | feed (snapshot : MarketState) (results : List (Agent × Outcome))
  | feedClosing (snapshot : MarketState)

def Call.snapshot : Call → MarketState
  | feed snapshot _ => snapshot
  | feedClosing snapshot => snapshot

/-- A `feed` gathers one outcome of each agent. -/
def Call.Gathers (agents : List Agent) : Call → Prop
  | feed _ results => results.map Prod.fst = agents
  | feedClosing _ => True

/-- The call made. -/
def CompetitionRun.call (format : Json.FloatFormat PyFloat) (run : CompetitionRun) :
    Call → Except PyExc CompetitionRun
  | .feed snapshot results => run.feed format snapshot results
  | .feedClosing snapshot => run.feedClosing format snapshot

/-- The calls made, one after the other. -/
def CompetitionRun.calls (format : Json.FloatFormat PyFloat) (run : CompetitionRun) :
    List Call → Except PyExc CompetitionRun
  | [] => .ok run
  | call :: calls => do (← run.call format call).calls format calls

/-- `CompetitionRun.__init__`. -/
def CompetitionRun.start (agents : List Agent) (sourceMode : SourceMode) (runId : String)
    (hasSink : Bool) : CompetitionRun :=
  { agents := agents
    sourceMode := sourceMode
    runId := runId
    sink := if hasSink then some [] else none }

end Veridex.Runtime
