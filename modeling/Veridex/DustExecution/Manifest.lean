import Veridex.DustExecution.Contracts
import Veridex.Policy.Envelope

/-!
# The pinned manifest and admission (`dust_execution/manifest.py`)

`StrategyAuthorizationDecision.evaluate` admits or denies a run from the manifest's own caps and the
session state. The digests are hashes of canonical JSON; they are a parameter (`Digests`), of which
nothing is assumed.
-/

namespace Veridex.DustExecution

open Veridex.Py Veridex.Policy

/-- `StrategyExperimentManifest`. Its `universe` of tokens is not empty. -/
structure StrategyExperimentManifest where
  strategyId : String
  strategyConfigHash : String
  evidenceClass : EvidenceClass
  market : String
  tokenUniverse : List String
  tokenUniverse_nonempty : tokenUniverse ≠ []
  mode : ExecutionMode
  maxOrders : ℤ
  maxNotional : PyFloat
  maxSessionLoss : PyFloat
  maxDailyLoss : PyFloat
  sessionWindow : ℤ × ℤ
  requiredInputs : List String
  permittedIntentKinds : List String
  marketFeeSnapshotHash : String
  executionWalletBindingHash : Option String
  operatorAuthorization : String
  forbiddenClaims : List String

/-- `ExecutionWalletBinding` (`wallet_binding.py`). -/
structure ExecutionWalletBinding where
  provider : String
  walletRef : String
  walletAddress : String
  chainId : String
  venue : String
  privyPolicyContentHash : String
  authorizationQuorumRef : String
  authorizationQuorumContentHash : String
  quorumThreshold : ℤ
  deriving DecidableEq, Repr

/-- The hashes the run compares, each over the canonical payload of its argument. -/
structure Digests where
  manifestHash : StrategyExperimentManifest → String
  policyHash : PolicyEnvelope → String
  bindingHash : ExecutionWalletBinding → String
  policyContentHash : String → List (String × String × String) → String
  quorumContentHash : ℤ → List String → String

/-- `SessionState`. -/
structure SessionState where
  sessionId : String
  realizedLossSession : ℚ
  realizedLossDaily : ℚ
  openOrderCount : ℕ
  breakerOpen : Bool
  killSwitchEngaged : Bool
  deriving DecidableEq, Repr

/-- `AdmissionVerdict`. -/
inductive AdmissionVerdict where
  | allow
  | deny
  deriving DecidableEq, Repr

/-- `StrategyAuthorizationDecision`. -/
structure StrategyAuthorizationDecision where
  verdict : AdmissionVerdict
  reasonCodes : List String
  manifestHash : Option String
  policyHash : String
  sessionId : String
  deriving DecidableEq, Repr

namespace StrategyAuthorizationDecision

/-- The reason codes of a denial, in their fixed order. -/
def denials (manifest : StrategyExperimentManifest) (session : SessionState) : List String :=
  (if session.killSwitchEngaged then ["kill_switch_engaged"] else []) ++
  (if session.breakerOpen then ["breaker_open"] else []) ++
  (if capBreached manifest.maxSessionLoss session.realizedLossSession then ["session_loss_cap"]
    else []) ++
  if capBreached manifest.maxDailyLoss session.realizedLossDaily then ["daily_loss_cap"] else []

/-- `evaluate`. -/
def evaluate (digests : Digests) (manifest : Option StrategyExperimentManifest)
    (policyHash : String) (session : SessionState) : StrategyAuthorizationDecision :=
  match manifest with
  | none => ⟨.deny, ["missing_manifest"], none, policyHash, session.sessionId⟩
  | some manifest =>
    let reasonCodes := denials manifest session
    ⟨if reasonCodes = [] then .allow else .deny, reasonCodes, some (digests.manifestHash manifest),
      policyHash, session.sessionId⟩

end StrategyAuthorizationDecision

end Veridex.DustExecution
