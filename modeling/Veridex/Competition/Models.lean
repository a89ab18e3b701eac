import Veridex.Law.Recompute
import Veridex.Policy.Envelope

/-!
# Competitions (`competition/models.py`)

A competition has a configuration, a status, a roster, the id of its run and two riders that the
server sets: who owns it, and the tape that it replays.
-/

set_option linter.dupNamespace false

namespace Veridex.Competition

open Veridex.Law (SourceMode)
open Veridex.Policy (PolicyEnvelope)

/-- `ExecutionMode`. -/
inductive ExecutionMode where
  | paper
  | dryRun
  | liveGuarded
  deriving DecidableEq, Repr

/-- The mode's value. -/
def ExecutionMode.text : ExecutionMode → String
  | paper => "paper"
  | dryRun => "dry_run"
  | liveGuarded => "live_guarded"

/-- `CompetitionStatus`. -/
inductive CompetitionStatus where
  | draft
  | «open»
  | running
  | finalized
  deriving DecidableEq, Repr

/-- The status's value. -/
def CompetitionStatus.text : CompetitionStatus → String
  | draft => "draft"
  | «open» => "open"
  | running => "running"
  | finalized => "finalized"

/-- `ReplayBinding`. -/
structure ReplayBinding where
  packId : String
  fixtureId : ℤ
  contentHash : String
  deriving DecidableEq, Repr

/-- `CompetitionConfig`, whose `roster_size` is at least two. -/
structure CompetitionConfig where
  sourceMode : SourceMode
  executionMode : ExecutionMode := .paper
  rosterSize : ℕ
  two_le_rosterSize : 2 ≤ rosterSize
  operatorId : Option String := none
  policyEnvelope : Option PolicyEnvelope := none
  packId : Option String := none
  fixtureId : Option ℤ := none
  deriving DecidableEq

/-- `AgentEntry`. -/
structure AgentEntry where
  agentId : String
  owner : String
  strategy : String
  model : Option String
  proofMode : String
  configHash : Option String := none
  executionEligibility : Bool := false
  instanceId : Option String := none
  deriving DecidableEq, Repr

/-- `Competition`. -/
structure Competition where
  competitionId : String
  config : CompetitionConfig
  status : CompetitionStatus
  entries : List AgentEntry
  runId : Option String
  ownerId : Option String := none
  replayBinding : Option ReplayBinding := none
  deriving DecidableEq

end Veridex.Competition

/-!
## The competition service (`competition/service.py`)
-/

namespace Veridex.Competition

open Veridex.Policy (PolicyEnvelope)

/-- `_default_policy_envelope`: it denies every action. -/
def defaultPolicyEnvelope : PolicyEnvelope where
  maxStake := .fin 10
  maxOrdersPerRun := 5
  maxOrdersPerSession := 5
  maxOrdersPerDay := 5
  venueAllowlist := []
  marketAllowlist := []
  minEdgeBps := 0
  maxSlippageBps := 0
  maxPrice := .fin 1000
  maxQuoteAgeS := 300
  cooldownS := 0
  humanApprovalThreshold := .fin 0

/-- `competition.config.policy_envelope or _default_policy_envelope()`. -/
def envelopeOf (competition : Competition) : PolicyEnvelope :=
  competition.config.policyEnvelope.getD defaultPolicyEnvelope

end Veridex.Competition
