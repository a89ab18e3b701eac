import Veridex.Lib.Table
import Veridex.Scoring.Leaderboard

/-!
# The public projection (`public_projection.py`, `InMemoryStore.persist_projected_rows`)

The sealed rows of a run, under the public identities of its agents, are written to the store by run and
public identity. A directional board is the leaderboard of the rows there whose agents may be shown.
-/

namespace Veridex.Scoring

open Veridex.Lib Veridex.Py

/-! ## Public agents -/

/-- `Visibility`. -/
inductive Visibility where
  | «private»
  | «public»
  deriving DecidableEq

/-- `OperatorClass`. -/
inductive OperatorClass where
  | official
  | user
  deriving DecidableEq

/-- `PublicAgent`, as a board reads it. -/
structure PublicAgent where
  displayName : String
  operatorClass : OperatorClass
  visibility : Visibility
  deriving DecidableEq

/-- `PublicBinding`. -/
structure PublicBinding where
  publicAgentId : String
  instanceId : String
  configHash : String
  deriving DecidableEq

/-- A projected row: the sealed row under the public identity, and where it came from. -/
structure PublicRow where
  metrics : Metrics
  publicAgentId : String
  runtimeAgentId : String
  instanceId : String
  configHash : String
  runId : String
  sourceMode : String
  deriving DecidableEq

/-- The row as the leaderboard reads it. -/
def PublicRow.record (row : PublicRow) : Record where
  metrics := row.metrics
  sourceMode := some row.sourceMode

/-! ## The projection -/

/-- A sealed row under its binding. -/
def PublicBinding.publicRow (binding : PublicBinding) (runId sourceMode : String) (row : Metrics) :
    PublicRow where
  metrics := { row with agentId := binding.publicAgentId }
  publicAgentId := binding.publicAgentId
  runtimeAgentId := row.agentId
  instanceId := binding.instanceId
  configHash := binding.configHash
  runId := runId
  sourceMode := sourceMode

/-- `_VALID_SOURCE_MODES`. -/
def validSourceModes : List String := ["replay", "live"]

/-- One row of `project_public_rows`: an agent with no binding is refused. -/
def projectRow (bindings : String → Option PublicBinding) (runId sourceMode : String)
    (row : Metrics) : Except PyExc PublicRow :=
  match bindings row.agentId with
  | none => .error ⟨.exception, "no public binding for runtime agent id"⟩
  | some binding => .ok (binding.publicRow runId sourceMode row)

/-- `project_public_rows`. -/
def projectPublicRows (sealedRows : List Metrics) (bindings : String → Option PublicBinding)
    (runId sourceMode : String) : Except PyExc (List PublicRow) :=
  if sourceMode ∉ validSourceModes then .error ⟨.exception, "invalid source_mode"⟩
  else sealedRows.mapM (projectRow bindings runId sourceMode)

/-- The key of a projected row in the store. -/
def PublicRow.key (row : PublicRow) : String × String := (row.runId, row.publicAgentId)

/-- `persist_projected_rows`. -/
def persistProjectedRows (rows stored : List PublicRow) : List PublicRow :=
  upserts PublicRow.key stored rows

/-! ## The board -/

/-- `BoardKind`. -/
inductive BoardKind where
  | officialBenchmark
  | publicAgents
  deriving DecidableEq

/-- A row of a directional board. -/
structure DirectionalRow where
  row : BoardRow
  publicAgentId : String
  displayName : String
  deriving DecidableEq

/-- Whether a board shows an agent. -/
def BoardKind.shows (boardKind : BoardKind) (agent : PublicAgent) : Bool :=
  agent.visibility = .«public» && (boardKind ≠ .officialBenchmark || agent.operatorClass = .official)

variable (agents : String → Option PublicAgent) (boardKind : BoardKind)

/-- Whether a board shows the agent of an identity. -/
def shown (publicAgentId : String) : Bool := (agents publicAgentId).any boardKind.shows

/-- The rows a board keeps. -/
def keptRows (stored : List PublicRow) : List PublicRow :=
  stored.filter fun row => shown agents boardKind row.publicAgentId

/-- `directional_board`. -/
def directionalBoard (stored : List PublicRow) : List DirectionalRow :=
  (leaderboard ((keptRows agents boardKind stored).map PublicRow.record)).map fun row =>
    { row := row
      publicAgentId := row.agentId
      displayName := ((agents row.agentId).map PublicAgent.displayName).getD "" }

end Veridex.Scoring
