import Veridex.Scoring.Metrics

/-!
# The evidence checks (`checks/build.py`)

`evidenceIntegrity` hashes the sealed events again. `metricsRecomputed` rebuilds the states and the
actions from the sealed events, recomputes each score row's value and compares it with the one the
row displays; a row labelled `pending_horizon` has its label derived again instead. What raises fails
the check.

The two rebuilt mappings are keyed by what the events hold, so a row's tick and agent, untyped, are
looked up with Python's equality.
-/

namespace Veridex.Checks

open Veridex.Py Veridex.Lib Veridex.Runtime Veridex.Law Veridex.Scoring

/-- A check's verdict. -/
inductive CheckVerdict where
  | pass
  | fail
  | notApplicable
  deriving DecidableEq, Repr

/-- What a row is reported for. -/
inductive Mismatch where
  | entrySnapshotMissing (tickSeq agentId : Decoded)
  | sealedActionMissing (tickSeq agentId : Decoded)
  | pendingHorizonNotSealed (agentId tickSeq : Decoded)
  | pendingHorizonMislabeled (agentId tickSeq : Decoded) (entryTs windowEndTs minClvHorizonS : ℤ)
  | diverged (agentId tickSeq persistedClvBps recomputedClvBps : Decoded)
  | aggregateDiverged

/-- `CheckResult`: its verdict, the rules it reports and the error it caught. -/
structure CheckResult where
  result : CheckVerdict
  rules : List Mismatch := []
  error : Option PyExc := none

section

variable (format : Json.FloatFormat PyFloat)

/-- `_evidence_integrity`. -/
def evidenceIntegrity (sha256 : List Char → String) (run : RunResult) : CheckResult :=
  match computeEvidenceHash format sha256 (run.runEvents.map RunEvent.toDict) with
  | .ok recomputed => { result := if recomputed = run.evidenceHash then .pass else .fail }
  | .error e => { result := .fail, error := some e }

/-! ## What the events hold -/

/-- The texts of the tick snapshots. -/
def tickSnapshots (events : List RunEvent) : List String :=
  events.filterMap fun event =>
    if event.eventType = .tick then event.stateSnapshotJson.filter (· ≠ "") else none

/-- `_marketstates_from_events`. -/
def marketstatesFromEvents (events : List RunEvent) : Except PyExc (List MarketState) := do
  let states ← (tickSnapshots events).mapM fun text => do
    MarketState.ofJson (← loadsText format text)
  return states.insertionSort fun a b => a.tickSeq ≤ b.tickSeq

/-- `_closings_from_marketstates`. -/
def closingsFromMarketstates (states : List MarketState) : String → Option MarketState :=
  states.foldl (fun closing state =>
    state.markets.foldl (fun closing market => Function.update closing market.1 (some state))
      closing) fun _ => none

/-- A decision's key and its action, as the events hold them. -/
abbrev SealedAction := (Decoded × Decoded) × Decoded

/-- One event of the walk that pairs the decisions with their ticks: the current tick, and the
actions, the last one first. -/
def actionStep (walk : Decoded × List SealedAction) (event : RunEvent) :
    Except PyExc (Decoded × List SealedAction) :=
  match event.eventType, event.stateSnapshotJson.filter (· ≠ ""),
      event.actionPayloadJson.filter (· ≠ "") with
  | .tick, some snapshot, _ => do
    let state ← loadsText format snapshot
    return (← state.get "tick_seq" .null, walk.2)
  | .decision, _, some action => do
    let result ← loadsText format ((event.resultPayloadJson.filter (· ≠ "")).getD "\x7b\x7d")
    let agentId ← result.get "agent_id" .null
    let action ← loadsText format action
    let _ ← walk.1.key
    let _ ← agentId.key
    return (walk.1, ((walk.1, agentId), action) :: walk.2)
  | _, _, _ => .ok walk

/-- `_actions_from_events`. -/
def actionsFromEvents (events : List RunEvent) : Except PyExc (List SealedAction) := do
  let ordered := events.insertionSort fun a b => a.sequenceNo ≤ b.sequenceNo
  return (← ordered.foldlM (actionStep format) (.null, [])).2

/-- `_window_config_from_events`. -/
def windowConfigFromEvents (events : List RunEvent) : Except PyExc (Option Decoded) :=
  match events.findSome? fun event =>
    if event.eventType = .windowConfig then event.resultPayloadJson.filter (· ≠ "") else none with
  | some text => some <$> loadsText format text
  | none => .ok none

/-! ## The recomputation -/

/-- `entry_by_tick.get(tick_seq)`. -/
def entryFor (states : List MarketState) (tickSeq : Decoded) :
    Except PyExc (Option MarketState) := do
  let _ ← tickSeq.key
  return tickSeq.number.bind fun tick =>
    states.reverse.find? fun state => tick == .fin state.tickSeq

/-- `action_by_key.get((tick_seq, agent_id))`. -/
def actionFor (actions : List SealedAction) (tickSeq agentId : Decoded) :
    Except PyExc (Option Decoded) := do
  let _ ← tickSeq.key
  let _ ← agentId.key
  return (actions.find? fun action =>
    action.1.1.eqv tickSeq && action.1.2.eqv agentId).map Prod.snd

/-- `window_cfg[name]`, an int. -/
def configInt (config : Decoded) (name : String) : Except PyExc ℤ := do
  match ← config.item (.str name) with
  | .int n => return n
  | _ => .error ⟨.typeError, "unsupported operand type(s) for -"⟩

/-- What the events hold, rebuilt. -/
structure Rebuilt where
  states : List MarketState
  actions : List SealedAction
  windowConfig : Option Decoded

/-- The rebuilding of `_metrics_recomputed`. -/
def rebuild (events : List RunEvent) : Except PyExc Rebuilt := do
  let states ← marketstatesFromEvents format events
  let actions ← actionsFromEvents format events
  let windowConfig ← windowConfigFromEvents format events
  return ⟨states, actions, windowConfig⟩

/-- A row labelled `pending_horizon` that shows no value. -/
def labelledPending (row : Params) : Bool :=
  (field row "reason").eqv (.str "pending_horizon") && (field row "clv_bps").eqv pending

/-- The value a row displays. -/
def displayedClv (row : Params) : Decoded :=
  match row.lookup "window_clv_bps" with
  | some value => value
  | none => field row "clv_bps"

/-- What the events' action comes to, recomputed. -/
def redo (rebuilt : Rebuilt) (sourceMode : SourceMode) (entry : MarketState) (rawAction : Decoded) :
    Except PyExc Verdict := do
  let action ← AgentAction.ofJson rawAction
  let closing ← closingFor (closingsFromMarketstates rebuilt.states) action
  recompute format entry action closing sourceMode

/-- One row of the check. -/
def checkRow (rebuilt : Rebuilt) (sourceMode : SourceMode) (row : Params) :
    Except PyExc (List Mismatch) := do
  let tickSeq := field row "tick_seq"
  let agentId := field row "agent_id"
  let entry ← entryFor rebuilt.states tickSeq
  let rawAction ← actionFor rebuilt.actions tickSeq agentId
  match entry, rawAction with
  | none, _ => return [.entrySnapshotMissing tickSeq agentId]
  | some _, none => return [.sealedActionMissing tickSeq agentId]
  | some entry, some rawAction =>
    if labelledPending row then
      match rebuilt.windowConfig with
      | none => return [.pendingHorizonNotSealed agentId tickSeq]
      | some config =>
        let windowEndTs ← configInt config "window_end_ts"
        let minClvHorizonS ← configInt config "min_clv_horizon_s"
        if isPendingHorizon entry.ts windowEndTs minClvHorizonS then return []
        else return [.pendingHorizonMislabeled agentId tickSeq entry.ts windowEndTs minClvHorizonS]
    else
      let verdict ← redo format rebuilt sourceMode entry rawAction
      if verdict.clvBps.eqv (displayedClv row) then return []
      else return [.diverged agentId tickSeq (displayedClv row) verdict.clvBps]

/-- The mismatches of a run's rows and of its displayed table. -/
def mismatches (scores : List Metrics) (run : RunResult) : Except PyExc (List Mismatch) := do
  let rebuilt ← rebuild format run.runEvents
  let rows ← run.scoreRows.mapM (checkRow format rebuilt run.sourceMode)
  let aggregate ← scoreRun run
  return rows.flatten ++ if aggregate = scores then [] else [.aggregateDiverged]

/-- `_metrics_recomputed`. -/
def metricsRecomputed (scores : List Metrics) (run : RunResult) : CheckResult :=
  if run.scoreRows = [] then { result := .notApplicable }
  else match mismatches format scores run with
    | .ok [] => { result := .pass }
    | .ok rules => { result := .fail, rules := rules }
    | .error e => { result := .fail, error := some e }

end

end Veridex.Checks
