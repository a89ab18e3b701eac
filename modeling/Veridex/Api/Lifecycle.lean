import Veridex.Api.Start

/-!
# The lifecycle of a competition (`api/router.py`, `competition/service.py`)

The endpoints that write a competition: its creation, the registration of an agent, the scored start,
the arena comparison, the kill switch and the re-arm that always refuses.

The replay catalog and the construction of agents are given (`ServerConfig`), and so is the result of the
arena comparison, which is asked outside: a report of its two contestants.
-/

namespace Veridex.Api

open Veridex.Competition Veridex.Lib Veridex.Policy Veridex.Py Veridex.Runtime
open Veridex.Store

/-- What the server is built with. -/
structure ServerConfig where
  format : Json.FloatFormat PyFloat
  sha256 : List Char → String
  policyHash : PolicyEnvelope → String
  resolveReplaySource : Option String → Option ℤ → Except String ReplayBinding
  loadResolvedMarketstates : ReplayBinding → Except String (List MarketState)
  buildAgent : AgentEntry → Option AgentInstance → Except Raised Agent
  arenaModelId : Option String

/-- A competition that is not there. -/
def competitionNotFound (competitionId : String) : String :=
  "competition " ++ pyRepr competitionId ++ " not found"

/-- `_require_competition_owner`. -/
def requireCompetitionOwner (competition : Competition) (principalDid : String) : Request Unit :=
  if competition.ownerId = some principalDid then return ()
  else .raise (.http 403 "principal does not own this competition")

/-- A competition that its owner asks for. -/
def ownedCompetition (competitionId principalDid : String) : Request Competition := do
  let competition ← orNotFound (competitionNotFound competitionId) (getCompetition competitionId)
  requireCompetitionOwner competition principalDid
  return competition

/-! ## Creation -/

/-- A `ReplayResolutionError`. -/
def replayUnresolved {α : Type} (message : String) : Request α :=
  .raise (.http 400 ("replay_unresolved: " ++ message))

/-- What a resolution returns, or its refusal. -/
def orUnresolved {α : Type} : Except String α → Request α
  | .ok a => return a
  | .error message => replayUnresolved message

section

variable (server : ServerConfig)

/-- `create_competition_endpoint`, with the id that is drawn. -/
def createCompetitionEndpoint (competitionId principalDid : String) (config : CompetitionConfig) :
    Request Unit := do
  let replayBinding ←
    if config.packId.isSome then
      some <$> orUnresolved (server.resolveReplaySource config.packId config.fixtureId)
    else pure none
  let competition : Competition := {
    competitionId := competitionId
    config := config
    status := .draft
    entries := []
    runId := none
    ownerId := some principalDid
    replayBinding := replayBinding }
  await (.createCompetition competition) (InMemoryStore.createCompetition competition)

/-! ## Registration -/

/-- `normalize_proof_mode`. -/
def normalizeProofMode (value : String) : Except Raised String :=
  if value = "reproducible" then .ok "reproducible"
  else if value = "verified" ∨ value = "LLM/evidence-verified" then .ok "verified"
  else .error (.valueError ("unknown proof_mode: " ++ pyRepr value))

/-- `declared_config_hash`. -/
def declaredConfigHash (agentId strategy : String) (model : Option String) (proofMode : String) :
    String :=
  server.sha256 (serializePayload server.format (.obj [("agent_id", .str agentId),
    ("strategy", .str strategy), ("model", optionalText model), ("proof_mode", .str proofMode)]))

/-- The roster's statuses: the last moment at which it may change. -/
def rosterMutableStatuses : List CompetitionStatus := [.draft, .open]

/-- `store.get_agent_instance`. -/
def getAgentInstance (instanceId : String) : Request AgentInstance := do
  match (← Task.request (.outside (.agentInstance instanceId))).agentInstance with
  | some agentInstance => return agentInstance
  | none => .raise (.keyError ("no agent instance with instance_id=" ++ pyRepr instanceId))

/-- `_resolve_owned_instance`, with the refusals of the endpoint. -/
def resolveOwnedInstance (instanceId principalDid : String) : Request AgentInstance := do
  let agentInstance ← orNotFound "agent instance not found" (getAgentInstance instanceId)
  if agentInstance.operatorId = none then .raise (.http 404 "agent instance not found")
  else if agentInstance.operatorId ≠ some principalDid then
    .raise (.http 403 "principal does not own this agent instance")
  else return agentInstance

/-- The entry as it is pinned. -/
def finalizedEntry (principalDid : String) (entry : AgentEntry) : Request AgentEntry := do
  let proofMode ← match normalizeProofMode entry.proofMode with
    | .ok proofMode => pure proofMode
    | .error e => .raise e
  match entry.instanceId with
  | some instanceId =>
    let agentInstance ← resolveOwnedInstance instanceId principalDid
    return { entry with
      proofMode := proofMode
      configHash := some agentInstance.configHash
      instanceId := some agentInstance.instanceId }
  | none => return { entry with
      proofMode := proofMode
      configHash := some (declaredConfigHash server entry.agentId entry.strategy entry.model proofMode) }

/-- `register_agent`. -/
def registerAgent (competitionId principalDid : String) (entry : AgentEntry) : Request Unit := do
  let finalized ← finalizedEntry server principalDid entry
  addAgentEntryGuarded competitionId finalized rosterMutableStatuses

/-- The refusals of a registration. -/
def registrationRefused (competitionId : String) : Raised → Request Unit
  | .rosterAdmission msg => .raise (.http 409 msg)
  | .keyError _ => .raise (.http 404 (competitionNotFound competitionId))
  | .valueError msg => .raise (.http 400 msg)
  | e => .raise e

/-- `register_agent_endpoint`. -/
def registerAgentEndpoint (competitionId principalDid : String) (entry : AgentEntry) :
    Request Unit := do
  let competition ← ownedCompetition competitionId principalDid
  if competition.status ∉ rosterMutableStatuses then
    .raise (.http 409 "roster is frozen: competition has already started")
  else if competition.entries.any fun existing => existing.agentId = entry.agentId then
    .raise (.http 409 ("agent " ++ pyRepr entry.agentId ++ " is already registered"))
  else if competition.config.rosterSize ≤ competition.entries.length then
    .raise (.http 409 ("roster is full (cap " ++ String.ofList
      (Json.intText competition.config.rosterSize) ++ ")"))
  else
    (registerAgent server competitionId principalDid entry).catching
      (registrationRefused competitionId)

/-! ## The scored start -/

/-- `build_agents_from_roster`. -/
def buildAgentsFromRoster : List AgentEntry → Request (List Agent)
  | [] => return []
  | entry :: entries => do
    let agentInstance ← match entry.instanceId with
      | some instanceId => some <$> getAgentInstance instanceId
      | none => pure none
    let agent ← match server.buildAgent entry agentInstance with
      | .ok agent => pure agent
      | .error e => .raise e
    return agent :: (← buildAgentsFromRoster entries)

/-- The roster's agents, or the endpoint's refusal. -/
def rosteredAgents (entries : List AgentEntry) : Request (List Agent) :=
  (buildAgentsFromRoster server entries).catching fun
    | .keyError msg => .raise (.http 409 ("rostered deployed instance not found: " ++ pyRepr msg))
    | .valueError msg => .raise (.http 400 msg)
    | e => .raise e

/-- The tape that is replayed: the binding that the competition has, or the one it is given here. -/
def resolvedBinding (competitionId : String) (competition : Competition) : Request ReplayBinding := do
  match competition.replayBinding with
  | some binding => return binding
  | none =>
    let binding ← orUnresolved (server.resolveReplaySource competition.config.packId
      competition.config.fixtureId)
    await (.updateCompetitionReplayBinding competitionId binding)
      (InMemoryStore.updateCompetitionReplayBinding competitionId binding)
    let authoritative ← getCompetition competitionId
    return authoritative.replayBinding.getD binding

/-- The refusals of a start. -/
def startRefused {α : Type} (competitionId : String) : Raised → Request α
  | .keyError _ => .raise (.http 404 (competitionNotFound competitionId))
  | .conflict msg => .raise (.http 409 msg)
  | .integrity msg => .raise (.http 500 msg)
  | .valueError msg => .raise (.http 400 msg)
  | e => .raise e

/-- `_authenticate` and `_check_owner`, of a start that is not on paper. -/
def authorizeStart (competition : Competition) (operator : Option (Option String)) : Request Unit :=
  if competition.config.executionMode = .paper then return ()
  else match operator with
    | none => .raise (.http 401 "invalid operator token")
    | some principal => checkOwner competition principal

/-- `start_competition_endpoint`, with the run id that is drawn. -/
def startCompetitionEndpoint (competitionId principalDid runId : String)
    (operator : Option (Option String)) : Request Competition := do
  let competition ← ownedCompetition competitionId principalDid
  authorizeStart competition operator
  let binding ← resolvedBinding server competitionId competition
  let marketstates ← orUnresolved (server.loadResolvedMarketstates binding)
  let agents ← rosteredAgents server competition.entries
  let inputs : StartInputs := {
    competitionId := competitionId
    marketstates := marketstates
    agents := agents
    broadcast := true
    runId := runId }
  (inputs.startCompetition server.format server.sha256 server.policyHash).catching
    (startRefused competitionId)

/-! ## The arena comparison -/

/-- `DET_DRIFT_CONTESTANT`. -/
def detDriftContestant : String := "det-drift"

/-- `LLM_DRIFT_CONTESTANT`. -/
def llmDriftContestant : String := "llm-drift"

/-- `_ARENA_CONTESTANT_CONTRACT`. -/
def arenaContestantContract : List (String × String) :=
  [(detDriftContestant, "cumulative-drift"), (llmDriftContestant, "llm")]

/-- `_ARENA_PROOF_MODE`. -/
def arenaProofMode : String := "reproducible"

/-- `expected_models`. -/
def expectedModel (agentId : String) : Option String :=
  if agentId = llmDriftContestant then server.arenaModelId else none

/-- `declared`: the last entry of an id counts. -/
def declaredStrategy (entries : List AgentEntry) (agentId : String) : Option String :=
  (entries.reverse.find? (·.agentId = agentId)).map (·.strategy)

/-- What an entry pins, as the arena runs it. -/
def contestantConfig (entry : AgentEntry) : Except Raised (String × Decoded) :=
  let strategy := (arenaContestantContract.lookup entry.agentId).getD ""
  let model := expectedModel server entry.agentId
  let expectedHash := declaredConfigHash server entry.agentId strategy model arenaProofMode
  if entry.instanceId.isSome then
    .error (.http 409 ("roster entry " ++ pyRepr entry.agentId ++
      " carries an incompatible instance binding; the intrinsic arena runs no deployed instance"))
  else if entry.configHash ≠ some expectedHash then
    .error (.http 409 ("roster entry " ++ pyRepr entry.agentId ++
      " pins a model/config identity the intrinsic arena does not run (expected config_hash " ++
      expectedHash ++ ", got " ++ entry.configHash.getD "None" ++ ")"))
  else .ok (entry.agentId, .obj [("strategy", .str strategy), ("model", optionalText model),
    ("proof_mode", .str arenaProofMode), ("config_hash", .str expectedHash)])

/-- `_verify_intrinsic_arena_roster`. -/
def verifyIntrinsicArenaRoster (entries : List AgentEntry) : Request Params :=
  if entries.length = arenaContestantContract.length ∧
      (∀ contestant ∈ arenaContestantContract,
        declaredStrategy entries contestant.1 = some contestant.2) then
    match entries.mapM (contestantConfig server) with
    | .ok config => return config
    | .error e => .raise e
  else .raise (.http 409
    "competition roster must declare EXACTLY the intrinsic arena contestants")

/-- `_recover_arena_claim`. -/
def recoverArenaClaim (competitionId : String) : Request Unit := do
  let events ← catchingException (listCompetitionEvents competitionId (-1)) fun _ => return []
  if events ≠ [] then
    catchingException (updateCompetitionStatus competitionId .finalized) fun _ => return ()
  else
    (releaseCompetitionRun competitionId .running .draft).catching fun
      | .statusClaim _ | .keyError _ => return ()
      | e => .raise e

/-- The claim of a competition. -/
def claimArenaRun (competitionId runId : String) : Request Unit :=
  (claimCompetitionRun competitionId .draft .running runId).catching fun
    | .statusClaim _ => .raise (.http 409 "competition already run")
    | e => .raise e

/-- The roster that the claim has frozen, verified again. -/
def verifyClaimed (competitionId : String) : Request Params :=
  Task.catching (do
    let claimed ← getCompetition competitionId
    verifyIntrinsicArenaRoster server claimed.entries) fun
    | .http statusCode detail => do
      recoverArenaClaim competitionId
      .raise (.http statusCode detail)
    | .keyError _ => do
      recoverArenaClaim competitionId
      .raise (.http 404 (competitionNotFound competitionId))
    | e => .raise e

/-- `base_ts` of the demo tape. -/
def demoBaseTs : ℤ := 1782518383

/-- The contestants of a report. -/
def arenaAgentIds : List String := [detDriftContestant, llmDriftContestant]

/-- The start event of an arena run. -/
def arenaStartedEvent (competition : Competition) (competitionId runId : String) (config : Params) :
    CompetitionEvent :=
  let started := buildCompetitionStartedEvent server.format server.sha256 competitionId runId
    competition.config.sourceMode arenaAgentIds demoBaseTs
  let payload := Json.setField "contestant_config" (.obj config) started.payload
  { started with
    payload := payload
    payloadHash := eventPayloadHash server.format server.sha256 payload }

/-- The event of an arena run's report. -/
def arenaEvent (competitionId runId : String) (report : Params) : CompetitionEvent :=
  derivedEvent server.format server.sha256 .competitionFinalized competitionId runId 1 demoBaseTs
    ("arena_comparison:" ++ runId) [("competition_id", .str competitionId), ("run_id", .str runId),
      ("agent_ids", .arr (arenaAgentIds.map .str)), ("arena_comparison", .obj report)]

/-- The comparison, its events, and the end of the competition. -/
def arenaRun (competition : Competition) (competitionId runId : String) (config : Params) :
    Request Unit := do
  let reply ← Task.request (.outside .arenaComparison)
  let report := Json.setField "contestant_config" (.obj config) reply.arenaReport
  appendCompetitionEvents competitionId [arenaStartedEvent server competition competitionId runId config,
    arenaEvent server competitionId runId report]
  updateCompetitionStatus competitionId .finalized

/-- What the arena does after it has claimed the competition. -/
def claimedArena (competition : Competition) (competitionId runId : String) : Request Unit := do
  let config ← verifyClaimed server competitionId
  catchingException (arenaRun server competition competitionId runId config) fun _ => do
    recoverArenaClaim competitionId
    .raise (.http 503 "arena run failed; competition rolled back and retryable")

/-- `run_competition_arena_endpoint`, with the run id that is drawn. -/
def runCompetitionArenaEndpoint (competitionId principalDid runId : String) : Request Unit := do
  let competition ← ownedCompetition competitionId principalDid
  if competition.status = .running ∨ competition.status = .finalized then
    .raise (.http 409 "competition already run")
  else do
    let _ ← verifyIntrinsicArenaRoster server competition.entries
    let _ ← rosteredAgents server competition.entries
    claimArenaRun competitionId runId
    claimedArena server competition competitionId runId

/-! ## The kill switch -/

/-- The configuration with the kill switch on. -/
def engagedConfig (competition : Competition) : CompetitionConfig :=
  { competition.config with policyEnvelope := some { envelopeOf competition with killSwitch := true } }

/-- `kill_switch_endpoint`. -/
def killSwitchEndpoint (competitionId : String) (principal : Option String) : Request Unit := do
  let competition ← orNotFound (competitionNotFound competitionId) (getCompetition competitionId)
  checkOwner competition principal
  updateCompetitionConfig competitionId (engagedConfig competition)

/-- `re_arm_endpoint`, which refuses. -/
def reArmEndpoint (competitionId : String) (principal : Option String) (authorize : Bool) :
    Request Unit := do
  let competition ← orNotFound (competitionNotFound competitionId) (getCompetition competitionId)
  checkOwner competition principal
  if !authorize then
    .raise (.http 403 "re-arm requires explicit operator authorization (\x7b'authorize': true\x7d)")
  else .raise (.http 409 ("re-arm fail-closed: open-order reconciliation and risk-state reload " ++
    "(SAF-002c) cannot be satisfied without a live execution runtime; kill-switch stays engaged"))

end

end Veridex.Api
