import Veridex.Lib.Run
import Veridex.MmStrategy.ExecutionAdapter

/-!
# The execution bridge (`mm_strategy/orchestration.py`)

`execute_plan_bridged` runs `execute_plan` in a worker thread. The worker and the host interleave at
any order: the worker at the stop check, at the submission and at the end of the wait of each leg, the
host where it awaits the worker, and the session sets the stop signal and cancels the host when it
likes. A `BridgeStep` is one of these.

* The proposer is the environment of a submitted leg: a `Reply` is how the wait on its future ends.
  Its own `TimeoutError` is `FuturesTimeoutError`, so it ends the wait as a timeout does.
* A leg whose coroutine is cancelled raises `concurrent.futures.CancelledError` in the worker. The
  loop hands it on as `asyncio.CancelledError`, which cancels the worker's task.
* A cancellation is one step where it is delivered: the host then runs up to its next await.
* The counters of `BridgeInstrument`, which nothing reads back, are left out, and so is the check
  that the worker is not the host's thread. A record keeps the escape itself, not its `repr`.
-/

namespace Veridex.MmStrategy

open Veridex.Py Veridex.Lib
open DustExecution (MMExecutionToolRequest MMExecutionToolResult)

/-! ## Escapes and their records -/

/-- What may escape the worker. -/
inductive BridgeExc where
  | abortedByKill (request : MMExecutionToolRequest)
  | uncertainOutcome (request : MMExecutionToolRequest)
  | cancelled
  | raised (e : PyExc)
  deriving DecidableEq

/-- `FreezeRecord.reason`. -/
inductive FreezeReason where
  | abortedByKill
  | uncertainOutcome
  | facadeEscape
  deriving DecidableEq, Repr

/-- `FreezeRecord`. -/
structure FreezeRecord where
  reason : FreezeReason
  possiblyLive : Bool
  decision : StrategyDecision
  request : Option MMExecutionToolRequest
  error : BridgeExc
  deriving DecidableEq

/-- `FreezeRecord.from_escape`. -/
def FreezeRecord.fromEscape (decision : StrategyDecision) (exc : BridgeExc) : FreezeRecord :=
  match exc with
  | .abortedByKill request => ⟨.abortedByKill, false, decision, some request, exc⟩
  | .uncertainOutcome request => ⟨.uncertainOutcome, true, decision, some request, exc⟩
  | _ => ⟨.facadeEscape, true, decision, none, exc⟩

/-- `BridgedPlanResult`. -/
structure BridgedPlanResult where
  plan : Option PlanExecutionResult
  escaped : Option FreezeRecord
  deriving DecidableEq

/-! ## The two parties -/

/-- What the bridge computes with the worker. -/
abbrev BridgedPlan := PlanDialogue BridgeExc PlanExecutionResult

/-- The worker thread. -/
inductive Worker where
  | running (plan : BridgedPlan)
  | cleared (request : MMExecutionToolRequest)
      (next : Except BridgeExc MMExecutionToolResult → BridgedPlan)
  | waiting (request : MMExecutionToolRequest)
      (next : Except BridgeExc MMExecutionToolResult → BridgedPlan)
  | ended (outcome : Except BridgeExc PlanExecutionResult)

/-- The host: before its first step, at one of its two awaits, or finished. -/
inductive Host where
  | ready
  | awaiting
  | draining
  | returned (result : BridgedPlanResult)
  | cancelled
  | raised (e : PyExc)
  deriving DecidableEq

/-- The call of `execute_plan_bridged`, with the session's stop signal and freeze sink. -/
structure Bridge where
  host : Host := .ready
  worker : Worker
  stop : Bool
  emitted : List FreezeRecord := []

/-- The host awaits the worker. -/
def Bridge.Live (bridge : Bridge) : Prop := bridge.host = .awaiting ∨ bridge.host = .draining

/-- How the bounded wait on a leg's future ends. -/
inductive Reply where
  | result (result : MMExecutionToolResult)
  | raised (e : BridgeExc)
  | timedOut
  deriving DecidableEq

/-- What the facade seam gives `execute_plan` for a reply. -/
def Reply.answer (request : MMExecutionToolRequest) :
    Reply → Except BridgeExc MMExecutionToolResult
  | .result answer => .ok answer
  | .raised e => .error e
  | .timedOut => .error (.uncertainOutcome request)

/-- What is seen of a step. -/
inductive BridgeEvent where
  | start
  | stopSet
  | cancel
  | check (request : MMExecutionToolRequest)
  | submit (request : MMExecutionToolRequest)
  | reply (request : MMExecutionToolRequest) (reply : Reply)
  | finish
  | resume
  deriving DecidableEq

/-! ## The host's code -/

section Host

variable (decision : StrategyDecision)

/-- What the cancel path emits once the worker is terminal. -/
def escapeRecords : Except BridgeExc PlanExecutionResult → List FreezeRecord
  | .error .cancelled => []
  | .error exc => [.fromEscape decision exc]
  | .ok _ => []

/-- The cancel path, at the test of its loop. -/
def Bridge.drain (bridge : Bridge) : Bridge :=
  match bridge.worker with
  | .ended outcome =>
    { bridge with
      host := .cancelled
      emitted := bridge.emitted ++ escapeRecords decision outcome }
  | _ => { bridge with host := .draining }

/-- The first `await asyncio.shield(worker)` ends with the worker. -/
def Bridge.resumeAwaiting (bridge : Bridge) : Except BridgeExc PlanExecutionResult → Bridge
  | .ok plan => { bridge with host := .returned ⟨some plan, none⟩ }
  | .error .cancelled => { bridge with stop := true }.drain decision
  | .error (.raised e) =>
    if e.isException then
      { bridge with host := .returned ⟨none, some (.fromEscape decision (.raised e))⟩ }
    else { bridge with host := .raised e }
  | .error exc => { bridge with host := .returned ⟨none, some (.fromEscape decision exc)⟩ }

/-- The `await` of the cancel path ends with the worker. -/
def Bridge.resumeDraining (bridge : Bridge) : Except BridgeExc PlanExecutionResult → Bridge
  | .error (.raised e) =>
    if e.isException then bridge.drain decision else { bridge with host := .raised e }
  | _ => bridge.drain decision

end Host

/-! ## Steps -/

/-- `math.isfinite(timeout_s)` and `timeout_s > 0`. -/
def validTimeout (timeoutS : PyFloat) : Bool := timeoutS.isFinite && (PyFloat.fin 0).lt timeoutS

/-- The error of a timeout that is not. -/
def timeoutError : PyExc := ⟨.valueError, "execute_plan_bridged: timeout_s must be finite and " ++
  "strictly positive — every future.result() wait must be bounded (fail closed)"⟩

/-- One step of the worker, the host or the session. -/
inductive BridgeStep (timeoutS : PyFloat) (decision : StrategyDecision) :
    Bridge → BridgeEvent → Bridge → Prop
  | start {bridge : Bridge} (ready : bridge.host = .ready) (valid : validTimeout timeoutS = true) :
      BridgeStep timeoutS decision bridge .start { bridge with host := .awaiting }
  | badTimeout {bridge : Bridge} (ready : bridge.host = .ready)
      (invalid : validTimeout timeoutS = false) :
      BridgeStep timeoutS decision bridge .start { bridge with host := .raised timeoutError }
  | stopSet {bridge : Bridge} :
      BridgeStep timeoutS decision bridge .stopSet { bridge with stop := true }
  | cancelReady {bridge : Bridge} (ready : bridge.host = .ready) :
      BridgeStep timeoutS decision bridge .cancel { bridge with host := .cancelled }
  | cancelAwaiting {bridge : Bridge} (awaiting : bridge.host = .awaiting) :
      BridgeStep timeoutS decision bridge .cancel ({ bridge with stop := true }.drain decision)
  | cancelDraining {bridge : Bridge} (draining : bridge.host = .draining) :
      BridgeStep timeoutS decision bridge .cancel (bridge.drain decision)
  | checkClear {bridge : Bridge} {request : MMExecutionToolRequest}
      {next : Except BridgeExc MMExecutionToolResult → BridgedPlan} (live : bridge.Live)
      (running : bridge.worker = .running (.ask request next)) (unset : bridge.stop = false) :
      BridgeStep timeoutS decision bridge (.check request)
        { bridge with worker := .cleared request next }
  | checkStopped {bridge : Bridge} {request : MMExecutionToolRequest}
      {next : Except BridgeExc MMExecutionToolResult → BridgedPlan} (live : bridge.Live)
      (running : bridge.worker = .running (.ask request next)) (set : bridge.stop = true) :
      BridgeStep timeoutS decision bridge (.check request)
        { bridge with worker := .running (next (.error (.abortedByKill request))) }
  | submit {bridge : Bridge} {request : MMExecutionToolRequest}
      {next : Except BridgeExc MMExecutionToolResult → BridgedPlan} (live : bridge.Live)
      (cleared : bridge.worker = .cleared request next) :
      BridgeStep timeoutS decision bridge (.submit request)
        { bridge with worker := .waiting request next }
  | reply {bridge : Bridge} {request : MMExecutionToolRequest}
      {next : Except BridgeExc MMExecutionToolResult → BridgedPlan} (reply : Reply)
      (live : bridge.Live) (waiting : bridge.worker = .waiting request next) :
      BridgeStep timeoutS decision bridge (.reply request reply)
        { bridge with worker := .running (next (reply.answer request)) }
  | finish {bridge : Bridge} {outcome : Except BridgeExc PlanExecutionResult} (live : bridge.Live)
      (running : bridge.worker = .running (.done outcome)) :
      BridgeStep timeoutS decision bridge .finish { bridge with worker := .ended outcome }
  | resumeAwaiting {bridge : Bridge} {outcome : Except BridgeExc PlanExecutionResult}
      (awaiting : bridge.host = .awaiting) (ended : bridge.worker = .ended outcome) :
      BridgeStep timeoutS decision bridge .resume (bridge.resumeAwaiting decision outcome)
  | resumeDraining {bridge : Bridge} {outcome : Except BridgeExc PlanExecutionResult}
      (draining : bridge.host = .draining) (ended : bridge.worker = .ended outcome) :
      BridgeStep timeoutS decision bridge .resume (bridge.resumeDraining decision outcome)

/-- A call of `execute_plan_bridged`, under a stop signal that may be set already. -/
def Bridge.call (inputs : PlanInputs) (decision : StrategyDecision) (stop : Bool) : Bridge where
  worker := .running (executePlan .raised inputs decision)
  stop := stop

/-- The runs of a call. -/
abbrev BridgeRun (timeoutS : PyFloat) (inputs : PlanInputs) (decision : StrategyDecision)
    (stop : Bool) : List BridgeEvent → Bridge → Prop :=
  Run (BridgeStep timeoutS decision) (.call inputs decision stop)

end Veridex.MmStrategy
