import Veridex.Ingest.TxlineNormalize
import Veridex.Runtime.Orchestrator
import Veridex.Verifier.Manifest

/-!
# The windowed live runner (`runtime/live_runner.py`)

`runLiveWindow` feeds a `CompetitionRun` the ticks of a stream as they arrive, closes the window by its
end rule, seals the reconstructed close of a `pre_match` window, finalizes and hashes the manifest.

* An arrival is a tick with what each agent decides on it and whether the stop event was set by then;
  a stop on an idle stream ends it as a finite stream ends. Agents, stream, updates, sink, store and
  anchor are whatever they are: what they answer is given.
* The sink is asked for one event after the other. Where it raises, the event is in the run already
  and its number is not used up (`emitTo`); the error carries the run as it was left.
* `ops` is kept as what it says. The proof card, the checks and the feed status change nothing here,
  and are left out; so is the caller's window, which `finalize` stamps.
-/

namespace Veridex.Runtime

open Veridex.Py Veridex.Lib Veridex.Law Veridex.Scoring Veridex.Ingest Veridex.Verifier

/-! ## A run with a sink that may raise -/

/-- What the sink answers to each event it is asked for: nothing, or what it raises. -/
abbrev Sink := ℕ → Option PyExc

/-- An exception, and the run it left. -/
structure Raised where
  error : PyExc
  run : CompetitionRun

section

variable (format : Json.FloatFormat PyFloat) (sink : Sink)

namespace CompetitionRun

/-- `_emit`, and the number after it where the sink accepts the event. -/
def emitTo (run : CompetitionRun) (body : EventBody) : Except Raised CompetitionRun :=
  let event : RunEvent := { body with sequenceNo := run.sequenceNo }
  match run.sink, sink run.rawEvents.length with
  | some _, some e => .error ⟨e, { run with rawEvents := run.rawEvents ++ [event] }⟩
  | _, _ => .ok (run.emit body)

/-- One gathered decision recorded. -/
def recordTo (snapshot : MarketState) (run : CompetitionRun) (result : Agent × Outcome) :
    Except Raised CompetitionRun := do
  let emitted ← run.emitTo sink (outcomeBody format result.1 result.2)
  match result with
  | (agent, .acted action) =>
    return { emitted with decisions := emitted.decisions ++ [(agent, action, snapshot)] }
  | _ => return emitted

/-- A snapshot taken in. -/
def tickTo (run : CompetitionRun) (snapshot : MarketState) : Except Raised CompetitionRun :=
  { run with snapshots := run.snapshots ++ [snapshot] }.emitTo sink (tickBody format snapshot)

/-- `feed`. -/
def feedTo (run : CompetitionRun) (snapshot : MarketState) (results : List (Agent × Outcome)) :
    Except Raised CompetitionRun :=
  if run.finalized then .error ⟨⟨.exception, "run already finalized"⟩, run⟩
  else do
    let run ← run.tickTo format sink snapshot
    results.foldlM (recordTo format sink snapshot) run

/-- `feed_closing`. -/
def feedClosingTo (run : CompetitionRun) (snapshot : MarketState) :
    Except Raised CompetitionRun :=
  if run.finalized then .error ⟨⟨.exception, "run already finalized"⟩, run⟩
  else run.tickTo format sink snapshot

/-- The run with the window's configuration emitted. -/
def sealWindowTo (run : CompetitionRun) (window : Option RunWindow) :
    Except Raised CompetitionRun :=
  match window, windowEndTs window run.snapshots with
  | some window, some endTs => run.emitTo sink (windowBody format window endTs)
  | _, _ => .ok run

/-- `finalize`. -/
def finalizeTo (sha256 : List Char → String) (run : CompetitionRun) (window : Option RunWindow)
    (persist : Except PyExc Unit) : Except PyExc RunResult :=
  if run.finalized then .error ⟨.exception, "run already finalized"⟩
  else do
    let sealedRun ← (run.sealWindowTo format sink window).mapError Raised.error
    let result ← sealedRun.result format sha256 (window.map (RunWindow.stamp run.snapshots))
    let _ ← persist
    return result

end CompetitionRun

end

/-! ## The window -/

/-- `RunWindow`, with what the live runner reads. -/
structure LiveWindow extends RunWindow where
  fixtureId : ℤ
  marketAllowlist : List String
  durationS : Option ℤ := none

/-- `_is_in_running`. -/
def isInRunning (state : MarketState) : Bool := state.phase = 1

/-- `_allowed`. -/
def allowed (market : String) (allowlist : List String) : Bool :=
  allowlist.any fun start => start.toList.isPrefixOf market.toList

/-- `_filter_markets`. -/
def filterMarkets (state : MarketState) (allowlist : List String) : MarketState :=
  { state with
    markets := state.markets.filter fun market => allowed market.1 allowlist
    marketsCanonical := by
      have hfilter := Json.CanonicalFields.filter state.marketsCanonical
        fun market => allowed market.1 allowlist
      rwa [List.filter_map] at hfilter }

/-- A tick that arrives: whether the stop event was set by then, and what each agent decides on it. -/
structure Arrival where
  tick : MarketState
  stopSet : Bool := false
  decide : Agent → Outcome

/-- How a stream ends: its last tick was taken or the stop event was set on it, or it raises. -/
inductive StreamEnd where
  | finished
  | raised (error : PyExc)

/-- How the window closed. -/
inductive LoopEnd where
  | finished
  | stopped
  | kickoff
  | elapsed
  | interrupted (error : PyExc)

/-- What the loop keeps. -/
structure LoopState where
  run : CompetitionRun
  startedTs : Option ℤ := none
  lastTickSeq : ℤ := -1
  fedAny : Bool := false
  seenMarkets : List String := []

section

variable (format : Json.FloatFormat PyFloat) (sink : Sink) (window : LiveWindow)

/-- The tick, fed. -/
def LoopState.feedTick (state : LoopState) (arrival : Arrival) : Except Raised LoopState := do
  let filtered := filterMarkets arrival.tick window.marketAllowlist
  let run ← state.run.feedTo format sink filtered
    (state.run.agents.map fun agent => (agent, arrival.decide agent))
  return {
    run := run
    startedTs := state.startedTs.or (some filtered.ts)
    lastTickSeq := filtered.tickSeq
    fedAny := true
    seenMarkets := state.seenMarkets ++ filtered.markets.map Prod.fst }

/-- Whether a tick ends the window before it is fed. -/
def closesOn (state : LoopState) (tick : MarketState) : Option LoopEnd :=
  if window.endRule = .preMatch && isInRunning tick then some .kickoff
  else
    match window.endRule, state.startedTs, window.durationS with
    | .fixedDuration, some startedTs, some durationS =>
      if startedTs + durationS < tick.ts then some .elapsed else none
    | _, _, _ => none

/-- The loop: the state it ends in, and how. -/
def liveLoop (streamEnd : StreamEnd) : LoopState → List Arrival → LoopState × LoopEnd
  | state, [] => match streamEnd with
    | .finished => (state, .finished)
    | .raised e => (state, .interrupted e)
  | state, arrival :: rest =>
    if window.endRule = .manualStop && arrival.stopSet then (state, .stopped)
    else if arrival.tick.fixtureId ≠ window.fixtureId then liveLoop streamEnd state rest
    else match closesOn window state arrival.tick with
      | some loopEnd => (state, loopEnd)
      | none => match state.feedTick format sink window arrival with
        | .ok state => liveLoop streamEnd state rest
        | .error raised => ({ state with run := raised.run }, .interrupted raised.error)

end

/-! ## The close -/

/-- The last update of each market before the fixture went in-running. -/
def lastPerMarket (str : Decoded → String) (updates : List Params) : List (String × Decoded) :=
  Json.dictOf ((updates.filter fun update => !inRunning update).map fun update =>
    (marketKey str update, .obj update))

/-- The updates of a dictionary of them. -/
def updatesOf (perMarket : List (String × Decoded)) : List Params :=
  perMarket.filterMap fun market => match market.2 with
    | .obj update => some update
    | _ => none

/-- `_reconstruct_closing_state`. -/
def reconstructClosingState (str : Decoded → String) (updates : List Params)
    (allowlist : List String) (tickSeq : ℤ) : Except PyExc (Option MarketState) :=
  match reconstructClosing updates with
  | none => .ok none
  | some _ => do
    let closing ← marketstateFromTxlineOdds str (updatesOf (lastPerMarket str updates)) tickSeq
    return some (filterMarkets closing allowlist)

/-- `ops`. -/
structure Ops where
  streamInterrupted : Option PyExc := none
  closingFallback : Bool := false
  closingError : Option PyExc := none
  closingIncompleteMarkets : List String := []

/-- A window closed by hand instead. -/
def LiveWindow.degraded (window : LiveWindow) : RunWindow :=
  { window.toRunWindow with endRule := .manualStop }

section

variable (format : Json.FloatFormat PyFloat) (sink : Sink) (str : Decoded → String)
  (window : LiveWindow)

/-- The close sealed, with the window the run is finalized on. -/
def sealClosing (state : LoopState) (fetched : Except PyExc (List Params)) :
    Except PyExc (CompetitionRun × Ops × RunWindow) :=
  match (do
    let updates ← fetched
    reconstructClosingState str updates window.marketAllowlist (state.lastTickSeq + 1)) with
  | .error e =>
    .ok (state.run, { closingFallback := true, closingError := some e }, window.degraded)
  | .ok none => .ok (state.run, { closingFallback := true }, window.degraded)
  | .ok (some closing) => do
    let run ← (state.run.feedClosingTo format sink closing).mapError Raised.error
    let missing := state.seenMarkets.filter fun market => (closing.markets.lookup market).isNone
    if missing ≠ [] then
      return (run, { closingFallback := true,
                     closingIncompleteMarkets := missing.eraseDups.insertionSort (· ≤ ·) },
        window.degraded)
    else return (run, {}, window.toRunWindow)

/-- What the window is finalized on, after the loop. -/
def closeWindow (state : LoopState) (loopEnd : LoopEnd) (fetched : Except PyExc (List Params)) :
    Except PyExc (CompetitionRun × Ops × RunWindow) :=
  match loopEnd with
  | .interrupted e =>
    if !state.fedAny then .error e
    else .ok (state.run, { streamInterrupted := some e },
      if window.endRule = .preMatch then window.degraded else window.toRunWindow)
  | _ =>
    if window.endRule = .preMatch && state.fedAny then sealClosing format sink str window state fetched
    else .ok (state.run, {}, window.toRunWindow)

end

/-! ## The bundle -/

/-- What a live window is run with. -/
structure LiveInputs where
  window : LiveWindow
  agents : List Agent
  runId : String
  sink : Option Sink := none
  arrivals : List Arrival
  streamEnd : StreamEnd := .finished
  fetched : Except PyExc (List Params)
  persist : Except PyExc Unit := .ok ()
  anchor : Option (String → Except PyExc String) := none

/-- `LiveRunResult`. -/
structure LiveRunResult where
  run : RunResult
  scores : List Metrics
  manifestHash : String
  signature : Option String
  ops : Ops

section

variable (format : Json.FloatFormat PyFloat) (sha256 : List Char → String) (str : Decoded → String)
  (inputs : LiveInputs)

/-- What the sink answers, where there is one. -/
def LiveInputs.answers : Sink := inputs.sink.getD fun _ => none

/-- The loop's start. -/
def LiveInputs.start : LoopState :=
  { run := CompetitionRun.start inputs.agents .live inputs.runId inputs.sink.isSome }

/-- The loop of a live window. -/
def LiveInputs.loop : LoopState × LoopEnd :=
  liveLoop format inputs.answers inputs.window inputs.streamEnd inputs.start inputs.arrivals

/-- The manifest hash of a sealed window: its window is its identity. -/
def liveManifestHash (run : RunResult) (scores : List Metrics) : String :=
  runManifestHash format sha256 (manifestFromRun run inputs.window.windowId
    (recomputeScoreRoot format sha256 scores))

/-- `run_live_window`. -/
def runLiveWindow : Except PyExc LiveRunResult := do
  let (state, loopEnd) := inputs.loop format
  let (run, ops, window) ←
    closeWindow format inputs.answers str inputs.window state loopEnd inputs.fetched
  let result ← run.finalizeTo format inputs.answers sha256 (some window) inputs.persist
  let scores ← scoreRun result
  let manifestHash := liveManifestHash format sha256 inputs result scores
  let signature ← match inputs.anchor with
    | none => .ok none
    | some anchor => some <$> anchor manifestHash
  return ⟨result, scores, manifestHash, signature, ops⟩

end

end Veridex.Runtime
