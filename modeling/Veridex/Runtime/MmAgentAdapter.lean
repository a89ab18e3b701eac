import Veridex.Lib.TaskCalls
import Veridex.Py.Text

/-!
# The adapter that hosts a run

`VeridexAgentAdapter` keeps the phase of every hosted run. `start_run` attaches a run and waits for its
driver; `acancel_run` engages the run's stop signal once, for its owner alone.

* A run is one `Task` of two calls: it is attached, and its driver ends. Between them any number of
  cancel calls come in. `_cancel_lock` is never held over an await, so a cancel call is one step.
* The driver is told of by its end alone: a result, whose `terminal_reason` is a parameter, or an
  exception. `asyncio.CancelledError` is a `baseException`.
* `emitted` is what the adapter gives to the sink of a run; what a sink raises is dropped.
-/

namespace Veridex.Runtime

open Veridex.Lib Veridex.Py Task

/-- `RunPhase`. -/
inductive RunPhase where
  | active
  | cancelling
  | completed
  | failed
  | cancelled
  deriving DecidableEq

/-- `phase in _TERMINAL_PHASES`. -/
def RunPhase.isTerminal : RunPhase → Bool
  | .completed | .failed | .cancelled => true
  | .active | .cancelling => false

/-- `RunContext`, less the input that the driver alone reads. -/
structure RunContext where
  runId : String
  sessionId : String
  runtimeAgentId : String
  ownerDid : String

/-- `CancelResult`. -/
structure CancelResult where
  runId : String
  phase : RunPhase
  engaged : Bool

/-- `StopSignal`: how often it was set. -/
structure StopSignal where
  sets : ℕ

/-- `stop.set()`. -/
def StopSignal.set (stop : StopSignal) : StopSignal := ⟨stop.sets + 1⟩

/-- `_RunEntry`. -/
structure RunEntry where
  runId : String
  ownerDid : String
  stop : StopSignal
  phase : RunPhase

/-- A `STATUS_CHANGED` event of the operations stream. -/
structure StatusChanged where
  agentId : String
  runId : String
  sessionId : Option String
  status : String
  deriving DecidableEq

/-- The terminal status of a run. -/
def RunContext.terminalStatus (ctx : RunContext) (failed : Bool) : StatusChanged where
  agentId := ctx.runtimeAgentId
  runId := ctx.runId
  sessionId := if ctx.sessionId = "" then none else some ctx.sessionId
  status := if failed then "failed" else "completed"

/-- `VeridexAgentAdapter`: its runs, and what it has emitted. -/
structure VeridexAgentAdapter where
  runs : String → Option RunEntry
  emitted : List StatusChanged

/-- What the adapter raises. -/
inductive AdapterError where
  | runtimeError (msg : String)
  | keyError (runId : String)
  | ownerMismatch (msg : String)
  | driver (e : PyExc)

namespace VeridexAgentAdapter

variable {ρ : Type} (terminalReason : ρ → Option String) (ctx : RunContext)
  (adapter : VeridexAgentAdapter)

/-- `entry.phase = phase`. -/
def setPhase (runId : String) (phase : RunPhase) : VeridexAgentAdapter := { adapter with
  runs := Function.update adapter.runs runId <| (adapter.runs runId).map fun entry =>
    { entry with phase } }

/-- `_emit_terminal`. -/
def emitTerminal (failed : Bool) : VeridexAgentAdapter := { adapter with
  emitted := adapter.emitted ++ [ctx.terminalStatus failed] }

/-- `_drive_run`, up to the driver. -/
def attach : Except AdapterError Unit × VeridexAgentAdapter :=
  if (adapter.runs ctx.runId).any fun entry => !entry.phase.isTerminal then
    (.error (.runtimeError ("run already active: " ++ pyRepr ctx.runId)), adapter)
  else
    (.ok (), { adapter with runs := Function.update adapter.runs ctx.runId <| some {
      runId := ctx.runId, ownerDid := ctx.ownerDid, stop := ⟨0⟩, phase := .active } })

/-- `_drive_run`, after the driver. -/
def settle : Except PyExc ρ → Except AdapterError ρ × VeridexAgentAdapter
  | .error e =>
    -- `except Exception`: a `CancelledError` goes by
    if e.isException then
      (.error (.driver e), (adapter.setPhase ctx.runId .failed).emitTerminal ctx true)
    else (.error (.driver e), adapter)
  | .ok result =>
    let failed := terminalReason result == some "frozen"
    if (adapter.runs ctx.runId).any fun entry => entry.phase = .cancelling then
      (.ok result, adapter.setPhase ctx.runId .cancelled)
    else
      (.ok result, (adapter.setPhase ctx.runId
        (if failed then .failed else .completed)).emitTerminal ctx failed)

/-- `acancel_run`. -/
def acancelRun (runId : String) (ownerDid : Option String) :
    Except AdapterError CancelResult × VeridexAgentAdapter :=
  match adapter.runs runId with
  | none => (.error (.keyError runId), adapter)
  | some entry =>
    if ownerDid ≠ some entry.ownerDid then
      (.error (.ownerMismatch ("principal does not own run " ++ pyRepr runId ++
        " (cancel refused before any effect)")), adapter)
    else if entry.phase ≠ .active then (.ok ⟨runId, entry.phase, false⟩, adapter)
    else
      (.ok ⟨runId, .cancelling, true⟩, { adapter with
        runs := Function.update adapter.runs runId <| some {
          entry with phase := .cancelling, stop := entry.stop.set } })

end VeridexAgentAdapter

/-! ## Tasks -/

/-- The steps of the adapter's tasks. -/
inductive AdapterCall where
  | attach
  | driverEnds
  | acancelRun (runId : String) (ownerDid : Option String)

/-- What the adapter's calls return. -/
inductive Reply (ρ : Type) where
  | ran (result : ρ)
  | cancel (result : CancelResult)

/-- A task over an adapter. -/
abbrev AdapterTask := Task VeridexAgentAdapter AdapterCall Unit AdapterError

section Tasks

variable {ρ : Type} (terminalReason : ρ → Option String) (ctx : RunContext) (ending : Except PyExc ρ)

/-- A run whose driver has not ended. -/
def awaitDriver : AdapterTask (Reply ρ) :=
  perform .driverEnds fun adapter =>
    ((adapter.settle terminalReason ctx ending).1.map .ran,
      (adapter.settle terminalReason ctx ending).2)

/-- `start_run`, whose driver ends in a way. -/
def startRun : AdapterTask (Reply ρ) := do
  perform .attach fun adapter => adapter.attach ctx
  awaitDriver terminalReason ctx ending

/-- A cancel call. -/
def cancelCall (ρ : Type) (runId : String) (ownerDid : Option String) :
    AdapterTask (Reply ρ) :=
  perform (.acancelRun runId ownerDid) fun adapter =>
    ((adapter.acancelRun runId ownerDid).1.map .cancel, (adapter.acancelRun runId ownerDid).2)

/-- One run, and many cancel calls, over an adapter that has not hosted the run. -/
def hosting {ι : Type} (runs : String → Option RunEntry) (cancels : ι → String × Option String) :
    Pool VeridexAgentAdapter (Option ι) AdapterCall Unit AdapterError (Reply ρ) where
  shared := ⟨runs, []⟩
  tasks
    | none => startRun terminalReason ctx ending
    | some i => cancelCall ρ (cancels i).1 (cancels i).2

end Tasks

end Veridex.Runtime
