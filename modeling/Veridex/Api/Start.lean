import Veridex.Api.Approve
import Veridex.Competition.EventLog
import Veridex.Runtime.Competition

/-!
# Starting a competition (`competition/service.py`)

`startCompetition` loads the competition once, moves it to `running`, runs its agents with a sink that
appends one evidence event for each sealed event, appends the derived tail, and takes the sealed run
through the executor lane. The lane reads the configuration of the competition that was loaded.

The run id and the agents are given. What an agent decides, and everything the lane awaits that is no
record, is asked outside; `_decide` answers for an agent that raises or times out.
-/

namespace Veridex.Api

open Veridex.Competition Veridex.Lib Veridex.Policy Veridex.Py Veridex.Runtime Veridex.Scoring
open Veridex.Law (SourceMode)
open Veridex.Execution (Adapter Answer Await BreakerCell Lane Shell)
open Veridex.Store

/-- What the endpoints await outside of the store. -/
inductive Outside where
  | lane (question : Await)
  | decide (agents : List Agent) (snapshot : MarketState)
  | arenaComparison
  | agentInstance (instanceId : String)

/-- `AgentInstance`, as far as a roster reads it. -/
structure AgentInstance where
  instanceId : String
  configHash : String
  operatorId : Option String

/-- What is answered: each call reads what is its own. An agent is told by its position. -/
structure Reply where
  lane : Answer
  outcomes : ℕ → Outcome
  arenaReport : Params
  agentInstance : Option AgentInstance

/-- A request of the server. -/
abbrev Request := Endpoint Outside Reply

/-- What a computation without awaits returns or raises. -/
def ofPure {α : Type} : Except PyExc α → Request α
  | .ok a => return a
  | .error e => .raise (.other e)

/-- What the lane awaits. -/
def ofLaneAwait : Await → Request Answer
  | .appendExecutionRecord record => do
    appendExecutionRecord record
    return noAnswer
  | question => return (← Task.request (.outside (.lane question))).lane

/-- The lane, as a task of a request. -/
def ofLane {α : Type} (shell : Shell α) : Request α := Task.interpret .other ofLaneAwait shell

/-- `_safe_broadcast`: an error of it is swallowed. -/
def safeBroadcast (event : CompetitionEvent) : Request Unit :=
  catchingException (do let _ ← Task.request (.outside (.lane (.broadcast event)))) fun _ =>
    return ()

/-- `_safe_broadcast`, of each event. -/
def safeBroadcastAll : List CompetitionEvent → Request Unit
  | [] => return ()
  | event :: events => do
    safeBroadcast event
    safeBroadcastAll events

/-! ## The route of the lane -/

/-- `LiveExecutionDeps`. -/
structure LiveExecutionDeps where
  adapter : Adapter
  liveReady : Bool := false

/-- `_live_arm_gate`. -/
def liveArmGate : Option LiveExecutionDeps → Option String
  | none => some "missing_live_deps"
  | some liveDeps =>
    if !liveDeps.liveReady then some "live_ready_false"
    else if !liveDeps.adapter.providesRealVenueQuote then some "non_real_adapter"
    else none

/-- `_select_execution_route`: what is not armed is simulated. -/
def selectExecutionRoute (executionMode : ExecutionMode) (envelope : PolicyEnvelope)
    (liveDeps : Option LiveExecutionDeps) : Adapter × ExecutionMode × Option BreakerCell :=
  match liveDeps with
  | some deps =>
    if executionMode = .liveGuarded ∧ liveArmGate (some deps) = none then
      (deps.adapter, .liveGuarded, some { cooldownS := PyFloat.ofRat envelope.cooldownS })
    else (fakeVenueAdapter, .dryRun, none)
  | none => (fakeVenueAdapter, .dryRun, none)

/-! ## Parity -/

/-- The number of the first event that is not as it was projected. -/
def firstDivergence : List CompetitionEvent → List CompetitionEvent → Option ℤ
  | live :: persisted, projected :: projection =>
    if live = projected then firstDivergence persisted projection else some live.seq
  | _, _ => none

/-- `_assert_prefix_parity`. -/
def assertPrefixParity (persisted projection : List CompetitionEvent) : Request Unit :=
  let text (n : ℤ) : String := String.ofList (Json.intText n)
  let mismatch (seq : ℤ) (detail : String) : Request Unit :=
    .raise (.integrity ("live_evidence_prefix_diverged_from_projection: seq=" ++ text seq ++ " (" ++
      detail ++ ")"))
  if persisted.length ≠ projection.length then
    mismatch (min persisted.length projection.length) ("length mismatch: persisted=" ++
      text persisted.length ++ " projection=" ++ text projection.length)
  else
    match firstDivergence persisted projection with
    | some seq => mismatch seq "field mismatch"
    | none => return ()

/-! ## The start -/

/-- What a start is called with. -/
structure StartInputs where
  competitionId : String
  marketstates : List MarketState
  agents : List Agent
  broadcast : Bool
  liveDeps : Option LiveExecutionDeps := none
  runId : String

namespace StartInputs

variable (format : Json.FloatFormat PyFloat) (sha256 : List Char → String)
  (policyHash : PolicyEnvelope → String) (inputs : StartInputs)

/-- `base_ts`. -/
def baseTs : ℤ := (inputs.marketstates.head?.map (·.ts)).getD 0

/-- `sink`: the event is appended, then broadcast. -/
def sink (currentTickTs : ℤ) (runEvent : RunEvent) : Request ℤ := do
  let (event, currentTickTs) ← ofPure
    (buildEvidenceEvent format sha256 inputs.competitionId inputs.runId runEvent currentTickTs)
  appendCompetitionEvents inputs.competitionId [event]
  if inputs.broadcast then safeBroadcast event
  return currentTickTs

/-- `_emit` of the next event, to the sink. -/
def emit (state : CompetitionRun × ℤ) (body : EventBody) : Request ℤ :=
  inputs.sink format sha256 state.2 { body with sequenceNo := state.1.sequenceNo }

/-- A snapshot taken in. -/
def tick (state : CompetitionRun × ℤ) (snapshot : MarketState) : Request (CompetitionRun × ℤ) := do
  let currentTickTs ← inputs.emit format sha256 state (tickBody format snapshot)
  return (state.1.tick format snapshot, currentTickTs)

/-- One gathered decision recorded. -/
def record (snapshot : MarketState) (state : CompetitionRun × ℤ) (result : Agent × Outcome) :
    Request (CompetitionRun × ℤ) := do
  let currentTickTs ← inputs.emit format sha256 state (outcomeBody format result.1 result.2)
  return (state.1.record format snapshot result, currentTickTs)

/-- The gathered decisions, each with its agent. -/
def gathered (outcomes : ℕ → Outcome) : List (Agent × Outcome) :=
  inputs.agents.mapIdx fun i agent => (agent, outcomes i)

/-- `feed`. -/
def feed (state : CompetitionRun × ℤ) (snapshot : MarketState) : Request (CompetitionRun × ℤ) := do
  let state ← inputs.tick format sha256 state snapshot
  let reply ← Task.request (.outside (.decide inputs.agents snapshot))
  (inputs.gathered reply.outcomes).foldlM (inputs.record format sha256 snapshot) state

/-- `run_competition`, with the store and the sink. -/
def runCompetition (sourceMode : SourceMode) : Request RunResult := do
  let (run, _) ← inputs.marketstates.foldlM (inputs.feed format sha256)
    (CompetitionRun.start inputs.agents sourceMode inputs.runId true, inputs.baseTs)
  let runResult ← ofPure (run.result format sha256 none)
  persistRun runResult
  return runResult

/-- The event that tells of a route that was not armed. -/
def degradeEvent (liveDeps : Option LiveExecutionDeps) (runResult : RunResult) (seq eventTs : ℤ)
    (effectiveMode : ExecutionMode) : CompetitionEvent :=
  buildExecutionRouteEvent format sha256 inputs.competitionId runResult.runId seq eventTs
    [("requested_execution_mode", .str ExecutionMode.liveGuarded.text),
      ("effective_execution_mode", .str effectiveMode.text),
      ("degraded_because_not_armed", .bool true),
      ("degrade_reason", optionalText (liveArmGate liveDeps))]

/-- The lane of a start. -/
def lane (competition : Competition) (runResult : RunResult) (baseSeq : ℤ)
    (route : Adapter × ExecutionMode × Option BreakerCell) : Lane where
  competitionId := competition.competitionId
  runResult := runResult
  envelope := envelopeOf competition
  adapter := route.1
  executionMode := route.2.1.text
  baseSeq := baseSeq
  eventTs := inputs.baseTs
  guards := route.2.2
  entriesByAgent agentId := (competition.entries.reverse.find? (·.agentId = agentId)).map laneEntry

/-- `_run_execution_block`. -/
def runExecutionBlock (competition : Competition) (runResult : RunResult) (baseSeq : ℤ) :
    Request Unit := do
  let executionMode := competition.config.executionMode
  let route := selectExecutionRoute executionMode (envelopeOf competition) inputs.liveDeps
  let laneSeq ←
    if executionMode = .liveGuarded ∧ route.2.1 ≠ .liveGuarded then do
      let event := inputs.degradeEvent format sha256 inputs.liveDeps runResult baseSeq inputs.baseTs
        route.2.1
      appendCompetitionEvents competition.competitionId [event]
      if inputs.broadcast then safeBroadcast event
      pure (baseSeq + 1)
    else pure baseSeq
  let events ← ofLane ((inputs.lane competition runResult laneSeq route).runExecutionLane format
    sha256 policyHash)
  appendCompetitionEvents competition.competitionId events
  if inputs.broadcast then safeBroadcastAll events

/-- `max((event.seq for event in full_log), default=0)`. -/
def lastSeq (fullLog : List CompetitionEvent) : ℤ := ((fullLog.map (·.seq)).max?).getD 0

/-- What a start does after its run is sealed. -/
def conclude (competition : Competition) (runResult : RunResult) : Request Competition := do
  let fullLog ← ofPure (buildEventLog format sha256 runResult
    { competitionId := inputs.competitionId, eventTs := inputs.baseTs })
  let prefixEnd := runResult.runEvents.length
  let persisted ← listCompetitionEvents inputs.competitionId (-1)
  assertPrefixParity persisted (fullLog.filter fun event => event.seq ≤ prefixEnd)
  appendCompetitionEvents inputs.competitionId (fullLog.filter fun event => prefixEnd < event.seq)
  if competition.config.executionMode ≠ .paper then
    catchingException (inputs.runExecutionBlock format sha256 policyHash competition runResult
      (lastSeq fullLog + 1)) fun e => do
        updateCompetitionStatus inputs.competitionId .finalized
        .raise e
  updateCompetitionStatus inputs.competitionId .finalized
  getCompetition inputs.competitionId

/-- The start event. -/
def startedEvent (sourceMode : SourceMode) : CompetitionEvent :=
  buildCompetitionStartedEvent format sha256 inputs.competitionId inputs.runId sourceMode
    (inputs.agents.map (·.agentId)) inputs.baseTs

/-- A start of the competition that was loaded. -/
def run (competition : Competition) : Request Competition := do
  if competition.status = .finalized then .raise (.conflict "competition_already_finalized")
  else if competition.status = .running then .raise (.conflict "competition_already_running")
  else do
    updateCompetitionStatus inputs.competitionId .running
    updateCompetitionRunId inputs.competitionId inputs.runId
    appendCompetitionEvents inputs.competitionId
      [inputs.startedEvent format sha256 competition.config.sourceMode]
    let runResult ← inputs.runCompetition format sha256 competition.config.sourceMode
    inputs.conclude format sha256 policyHash competition runResult

/-- `start_competition`. -/
def startCompetition : Request Competition := do
  inputs.run format sha256 policyHash (← getCompetition inputs.competitionId)

end StartInputs

end Veridex.Api
