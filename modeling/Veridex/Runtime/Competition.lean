import Veridex.Runtime.Orchestrator
import Veridex.Verifier.Manifest

/-!
# The demo competition (`runtime/competition.py`)

`runDemoCompetition` feeds the snapshots to a run, seals it and hashes its manifest, with the root
forest. The proof card, the leaderboard and the arena comparison change none of it, and are left out.
-/

namespace Veridex.Runtime

open Veridex.Py Veridex.Lib Veridex.Law Veridex.Scoring Veridex.Verifier

/-- What a competition is run with: the snapshots, and what each agent decides on them. -/
structure DemoInputs where
  ticks : List (MarketState × (Agent → Outcome))
  agents : List Agent
  sourceMode : SourceMode := .replay
  runId : String
  persist : Except PyExc Unit := .ok ()
  anchor : Option (String → Except PyExc String) := none

/-- `CompetitionResult`. -/
structure CompetitionResult where
  run : RunResult
  scores : List Metrics
  manifest : List (String × Decoded)
  manifestHash : String
  signature : Option String

/-- `_fixture_or_window_id`. -/
def fixtureOrWindowId (marketstates : List MarketState) : String :=
  match marketstates with
  | state :: _ => toString state.fixtureId
  | [] => "unknown"

section

variable (format : Json.FloatFormat PyFloat) (sha256 : List Char → String) (inputs : DemoInputs)

/-- The snapshots, fed. -/
def DemoInputs.calls : List Call :=
  inputs.ticks.map fun tick => .feed tick.1 (inputs.agents.map fun agent => (agent, tick.2 agent))

/-- `run_competition`. -/
def runCompetition : Except PyExc RunResult := do
  let run ← (CompetitionRun.start inputs.agents inputs.sourceMode inputs.runId false).calls format
    inputs.calls
  (run.finalize format sha256 none inputs.persist).1

/-- `run_demo_competition`. -/
def runDemoCompetition : Except PyExc CompetitionResult := do
  let run ← runCompetition format sha256 inputs
  let scores ← scoreRun run
  let manifest := rootedManifest format sha256 run
    (fixtureOrWindowId (inputs.ticks.map Prod.fst)) scores
  let manifestHash := runManifestHash format sha256 manifest
  let signature ← match inputs.anchor with
    | none => .ok none
    | some anchor => some <$> anchor manifestHash
  return ⟨run, scores, manifest, manifestHash, signature⟩

end

end Veridex.Runtime
