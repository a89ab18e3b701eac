import Veridex.DustExecution.Arming
import Veridex.Py.Text
import Veridex.Runtime.Evidence

/-!
# The custody digests

`Digests` of `wallet_binding.py`: each is the digest of a canonical text. The digest of a text,
`sha256`, is a parameter.
-/

namespace Veridex.DustExecution

open Veridex.Lib Veridex.Py Veridex.Runtime

section

variable (format : Json.FloatFormat PyFloat) (sha256 : List Char → String)

/-- `_sha256_canonical`. -/
def sha256Canonical (payload : Json PyFloat) : String := sha256 (serializePayload format payload)

/-- A list of texts, as a value. -/
def textList (texts : List String) : Json PyFloat := .arr (texts.map .str)

/-- `PrivyWalletPolicy.content_hash`, of a default action and the rules in order. -/
def policyContentDigest (defaultAction : String) (rules : List (String × String × String)) : String :=
  sha256Canonical format sha256 <| .obj [
    ("default_action", .str defaultAction),
    ("rules", .arr (rules.map fun (method, primaryType, effect) =>
      textList [method, primaryType, effect]))]

/-- What `AuthorizationQuorum.content_hash` hashes: a threshold, and the keys in order. -/
def quorumContent (threshold : ℤ) (keys : List String) : Json PyFloat :=
  .obj [("threshold", .int threshold), ("keys", textList keys)]

/-- `AuthorizationQuorum.content_hash`. -/
def quorumContentDigest (threshold : ℤ) (keys : List String) : String :=
  sha256Canonical format sha256 (quorumContent threshold keys)

/-- `ExecutionWalletBinding.binding_hash`, of a binding whose address is lower-cased. -/
def bindingDigest (binding : ExecutionWalletBinding) : String :=
  sha256Canonical format sha256 <| .obj [
    ("provider", .str binding.provider),
    ("wallet_ref", .str binding.walletRef),
    ("wallet_address", .str binding.walletAddress),
    ("chain_id", .str binding.chainId),
    ("venue", .str binding.venue),
    ("privy_policy_content_hash", .str binding.privyPolicyContentHash),
    ("authorization_quorum_ref", .str binding.authorizationQuorumRef),
    ("authorization_quorum_content_hash", .str binding.authorizationQuorumContentHash),
    ("quorum_threshold", .int binding.quorumThreshold)]

/-- Digests whose custody part is canonical. -/
def Digests.custody (digests : Digests) : Digests := { digests with
  bindingHash := bindingDigest format sha256
  policyContentHash := policyContentDigest format sha256
  quorumContentHash := quorumContentDigest format sha256 }

end

variable {format : Json.FloatFormat PyFloat} {sha256 : List Char → String}

end Veridex.DustExecution

/-!
## What the wallet provider tells

The parsers of a policy and of a key quorum (`privy_provisioning.py`, lines 228-451), and the digest of
a complete policy. A payload is decoded JSON; the keys of a dictionary are texts.
-/

namespace Veridex.DustExecution

open Veridex.Lib Veridex.Py Veridex.Runtime

/-- `sorted(texts)`. -/
def sortedTexts (texts : List String) : List String := texts.mergeSort fun a b => a ≤ b

/-- `ProviderPolicyRule`. -/
structure ProviderPolicyRule where
  method : String
  action : PolicyEffect
  primaryType : String
  conditions : List String

section Parsers

variable (format : Json.FloatFormat PyFloat)

end Parsers

namespace ProviderPolicy

/-- A rule as `full_content_hash` hashes it: its method, action and primary type, and its conditions in
order. -/
abbrev RuleRow := String ×ₗ String ×ₗ String ×ₗ List String

/-- The row of a rule. -/
def row (rule : ProviderPolicyRule) : RuleRow :=
  toLex (rule.method, toLex (rule.action.text, toLex (rule.primaryType, sortedTexts rule.conditions)))

end ProviderPolicy

end Veridex.DustExecution
