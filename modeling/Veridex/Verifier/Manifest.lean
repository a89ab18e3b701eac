import Veridex.Scoring.Metrics

/-!
# The run manifest and its verification (`chain/anchor.py`, `chain/merkle.py`, `verifier/recompute.py`)

A manifest is a dictionary, and its hash the digest of its canonical text: what is anchored.
`verifyRun` rebuilds the manifest of a sealed run, with its root forest, and hashes it again.

The digest is taken as given, on texts; a text's UTF-8 is left to it.
-/

namespace Veridex.Verifier

open Veridex.Py Veridex.Lib Veridex.Runtime Veridex.Law Veridex.Scoring

/-- A float that may be absent. -/
def optionalFloat : Option ℚ → Decoded
  | none => .null
  | some q => .float (.fin q)

/-- An agent's metrics, as `score_run` returns them. -/
def metricsJson (metrics : Metrics) : Decoded :=
  .obj [("agent_id", .str metrics.agentId), ("avg_clv_bps", optionalFloat metrics.avgClvBps),
    ("total_clv_bps", .int metrics.totalClvBps), ("sim_pnl", .int metrics.simPnl),
    ("brier", optionalFloat metrics.brier), ("max_drawdown", .float (.fin metrics.maxDrawdown)),
    ("action_count", .int metrics.actionCount), ("valid_pct", .float (.fin metrics.validPct)),
    ("valid_count", .int metrics.validCount),
    ("avg_window_clv_bps", optionalFloat metrics.avgWindowClvBps),
    ("total_window_clv_bps", .int metrics.totalWindowClvBps),
    ("window_action_count", .int metrics.windowActionCount), ("proof_mode", .str metrics.proofMode),
    ("rank", .int metrics.rank)]

/-- `DEFAULT_SCHEMA_VERSIONS`, which `SCHEMA_VERSIONS` copies. -/
def defaultSchemaVersions : Decoded :=
  .obj [("action_schema", .str "sports_v0"), ("verifier", .str "v0")]

section

variable (format : Json.FloatFormat PyFloat) (sha256 : List Char → String)

/-! ## The roots -/

/-- `leaf_hash`. -/
def leafHash (payload : Decoded) : String := sha256 (serializePayload format payload)

/-- `_pair_hash`. -/
def pairHash (left right : String) : String := sha256 (left ++ right).toList

/-- The level above: the last node is its own neighbour where there is an odd one. -/
def nextLevel : List String → List String
  | left :: right :: rest => pairHash sha256 left right :: nextLevel rest
  | [last] => [pairHash sha256 last last]
  | [] => []

theorem length_nextLevel : ∀ level : List String,
    (nextLevel sha256 level).length = (level.length + 1) / 2
  | [] => rfl
  | [_] => by simp [nextLevel]
  | _ :: _ :: rest => by
    rw [nextLevel, List.length_cons, length_nextLevel rest]
    simp only [List.length_cons]
    omega

/-- `merkle_root`. -/
def merkleRoot : List String → String
  | [] => sha256 []
  | [root] => root
  | left :: right :: rest => merkleRoot (nextLevel sha256 (left :: right :: rest))
termination_by level => level.length
decreasing_by
  rw [length_nextLevel]
  simp only [List.length_cons]
  omega

/-- `domain_root`. -/
def domainRoot (records : List Decoded) : String :=
  merkleRoot sha256 (records.map (leafHash format sha256))

/-- `build_root_forest`. -/
def buildRootForest (eventLog scoreRows receipts policyResults competition payoutReserved :
    List Decoded) : Decoded :=
  .obj [("event_log", .str (domainRoot format sha256 eventLog)),
    ("score", .str (domainRoot format sha256 scoreRows)),
    ("receipt", .str (domainRoot format sha256 receipts)),
    ("policy", .str (domainRoot format sha256 policyResults)),
    ("competition", .str (domainRoot format sha256 competition)),
    ("payout_reserved", .str (domainRoot format sha256 payoutReserved))]

/-! ## The manifest -/

/-- `run_manifest`. -/
def runManifest (runId fixtureOrWindowId : String) (agentIds : List String)
    (actionEvidenceRoot scoreRoot : String) (proofModeMap : Params) (schemaVersions : Decoded) :
    List (String × Decoded) :=
  [("run_id", .str runId), ("fixture_or_window_id", .str fixtureOrWindowId),
    ("agent_ids", .arr (agentIds.map .str)), ("action_evidence_root", .str actionEvidenceRoot),
    ("score_root", .str scoreRoot), ("proof_mode_map", .obj proofModeMap),
    ("code_prompt_schema_versions", schemaVersions)]

/-- The canonical text of a manifest. -/
def manifestText (manifest : List (String × Decoded)) : List Char :=
  serializePayload format (.obj manifest)

/-- `run_manifest_hash`. -/
def runManifestHash (manifest : List (String × Decoded)) : String :=
  sha256 (manifestText format manifest)

/-- `recompute_score_root`. -/
def recomputeScoreRoot (scores : List Metrics) : String :=
  sha256 (serializePayload format (.arr (scores.map metricsJson)))

/-- `manifest_from_run`. -/
def manifestFromRun (run : RunResult) (fixtureOrWindowId scoreRoot : String) :
    List (String × Decoded) :=
  runManifest run.runId fixtureOrWindowId run.agentIds run.evidenceHash scoreRoot run.proofModeMap
    defaultSchemaVersions

/-- `root_forest_for_run`. -/
def rootForestForRun (run : RunResult) (scores : List Metrics) : Decoded :=
  buildRootForest format sha256 (run.runEvents.map fun event => .obj event.toDict)
    (scores.map metricsJson) [] []
    [.obj [("run_id", .str run.runId), ("source_mode", .str run.sourceMode.text),
      ("agent_ids", .arr (run.agentIds.map .str))]] []

/-- The manifest with its root forest. -/
def rootedManifest (run : RunResult) (fixtureOrWindowId : String) (scores : List Metrics) :
    List (String × Decoded) :=
  manifestFromRun run fixtureOrWindowId (recomputeScoreRoot format sha256 scores) ++
    [("root_forest", rootForestForRun format sha256 run scores)]

/-! ## Verification -/

/-- The fixture of the first snapshot that has one, with what `str` writes of it. -/
def firstFixtureId (str : Decoded → String) : List RunEvent → Except PyExc String
  | [] => .ok "unknown"
  | event :: rest =>
    match event.stateSnapshotJson.filter (· ≠ "") with
    | none => firstFixtureId str rest
    | some text =>
      match loadsText format text with
      | .error _ => firstFixtureId str rest
      | .ok snapshot => do
        match ← snapshot.get "fixture_id" .null with
        | .null => firstFixtureId str rest
        | fixtureId => return str fixtureId

/-- `fixture_or_window_id_from_events`. -/
def fixtureOrWindowIdFromEvents (str : Decoded → String) (events : List RunEvent) :
    Except PyExc String :=
  firstFixtureId format str (events.insertionSort fun a b => a.sequenceNo ≤ b.sequenceNo)

/-- `VerifyReport`. -/
structure VerifyReport where
  runId : String
  sourceMode : SourceMode
  evidenceHashSealed : String
  evidenceHashRecomputed : Option String := none
  evidenceMatch : Bool := false
  evidenceError : Option PyExc := none
  scoreRoot : String := ""
  scoreRows : List Metrics := []
  manifest : List (String × Decoded) := []
  manifestHash : String := ""

/-- `report.verified`. -/
def VerifyReport.verified (report : VerifyReport) : Bool := report.evidenceMatch

/-- The window's identity, as given or as the events say. -/
def resolveId (str : Decoded → String) (run : RunResult) : Option String → Except PyExc String
  | some given => .ok given
  | none => fixtureOrWindowIdFromEvents format str run.runEvents

/-- `verify_run`: what raises fails the verification, with what was recomputed before it. -/
def verifyRun (str : Decoded → String) (run : RunResult) (fixtureOrWindowId : Option String) :
    VerifyReport :=
  let report : VerifyReport :=
    { runId := run.runId, sourceMode := run.sourceMode, evidenceHashSealed := run.evidenceHash }
  match computeEvidenceHash format sha256 (run.runEvents.map RunEvent.toDict) with
  | .error e => { report with evidenceError := some e }
  | .ok recomputed =>
    let report := { report with evidenceHashRecomputed := some recomputed }
    match scoreRun run with
    | .error e => { report with evidenceError := some e }
    | .ok scores =>
      let scoreRoot := recomputeScoreRoot format sha256 scores
      let report := { report with scoreRows := scores, scoreRoot := scoreRoot }
      match resolveId format str run fixtureOrWindowId with
      | .error e => { report with evidenceError := some e }
      | .ok resolved =>
        let manifest := rootedManifest format sha256 run resolved scores
        { report with
          evidenceMatch := recomputed = run.evidenceHash
          manifest := manifest
          manifestHash := runManifestHash format sha256 manifest }

end

end Veridex.Verifier
