import Veridex.Lib.BestBy
import Veridex.LiveRecorder.CrashResume
import Veridex.MmStrategy.Contracts

/-!
# The assembler (`mm_strategy/assembler.py`, `live_recorder/alignment.py`)

`runCadence` folds a list of events over the one recorder: an FV arrival is sealed on the tape and
cached, any other event mints one observation. The factory of a tick is a function, which may raise.

* `FvArrival` and `ObservationTick` are plain dataclasses: an FV value is any float, and the checks
  are the validators of `MintEvent` and `GuardFairValue`.
* The message of a forged observation names the fields, without the texts of their values.

Results: `mint_eq`, `bestBy`'s facts about `eligibleFvPair`, `runCadenceFrom_tick`.
-/

namespace Veridex.MmStrategy

open Veridex.Py Veridex.Lib Veridex.Runtime Veridex.Recording

variable {F : Type}

/-! ## Contracts -/

/-- `MintSource`. -/
inductive MintSource where
  | book
  | fv
  | marketStatus
  | matchState
  | projection
  deriving DecidableEq, Repr

def MintSource.text : MintSource → String
  | .book => "book"
  | .fv => "fv"
  | .marketStatus => "market_status"
  | .matchState => "match_state"
  | .projection => "projection"

/-- `StreamIdentity`. -/
structure StreamIdentity where
  fixtureId : ℤ
  marketRef : String
  side : String
  tokenId : String
  deriving DecidableEq, Repr

/-- `StrategyObservation.stream_identity`. -/
def StrategyObservation.streamIdentity (observation : StrategyObservation) : StreamIdentity :=
  ⟨observation.fixtureId, observation.marketRef, observation.side, observation.tokenId⟩

def StreamIdentity.dump (identity : StreamIdentity) : Dict F :=
  [("fixture_id", .int identity.fixtureId), ("market_ref", .str identity.marketRef),
    ("side", .str identity.side), ("token_id", .str identity.tokenId)]

/-- `MintEvent`, under a placeholder number. -/
structure MintEvent where
  source : MintSource
  sourceEpoch : ℤ
  recvTs : ℤ
  identity : Option StreamIdentity
  fv_identity : source = .fv → identity ≠ none

/-- `MintEvent.model_dump`. -/
def MintEvent.dump (event : MintEvent) : Dict F :=
  [("sequence_no", .int 0), ("event_type", .str "MintEvent"), ("source", .str event.source.text),
    ("source_epoch", .int event.sourceEpoch), ("recv_ts", .int event.recvTs),
    ("identity", (event.identity.map fun identity => .obj identity.dump).getD .null)]

/-- `SourceGenerations`. -/
structure SourceGenerations where
  bookSourceEpoch : ℤ
  fvSourceEpoch : Option ℤ
  marketStatusEpoch : Option ℤ
  deriving DecidableEq, Repr

/-! ## Events -/

/-- `AssemblerOwnedFacts`. -/
structure AssemblerOwnedFacts where
  bookSourceEpoch : ℤ
  marketStatus : MarketStatus
  marketStatusRecvTs : Option ℤ
  marketStatusEpoch : Option ℤ
  phase : ℤ
  suspended : Bool
  matchStateRecvTs : ℤ

/-- `FvArrival`. -/
structure FvArrival where
  sourceTs : ℤ
  recvTs : ℤ
  value : PyFloat
  sourceEpoch : ℤ
  identity : StreamIdentity
  messageId : Option String := none
  proofStatus : ProofStatus := .unavailableNoMessageId

/-- `ObservationTick`. -/
structure ObservationTick where
  source : MintSource
  sourceEpoch : ℤ
  recvTs : ℤ
  owned : AssemblerOwnedFacts
  identity : StreamIdentity
  build : ℤ → Option GuardFairValue → Except PyExc StrategyObservation
  source_ne_fv : source ≠ .fv

/-- `CadenceEvent`. -/
inductive CadenceEvent where
  | fvArrival (arrival : FvArrival)
  | observationTick (tick : ObservationTick)

/-- The row an FV arrival mints. -/
def FvArrival.mintEvent (arrival : FvArrival) : MintEvent where
  source := .fv
  sourceEpoch := arrival.sourceEpoch
  recvTs := arrival.recvTs
  identity := some arrival.identity
  fv_identity := by simp

/-- The row a tick mints. -/
def ObservationTick.mintEvent (tick : ObservationTick) : MintEvent where
  source := tick.source
  sourceEpoch := tick.sourceEpoch
  recvTs := tick.recvTs
  identity := some tick.identity
  fv_identity := by simp

def CadenceEvent.mintEvent : CadenceEvent → MintEvent
  | .fvArrival arrival => arrival.mintEvent
  | .observationTick tick => tick.mintEvent

/-! ## The FV cache -/

/-- `FvPoint`. -/
structure FvPoint where
  sourceTs : ℤ
  recvTs : ℤ
  value : PyFloat
  sequenceNo : ℤ
  deriving DecidableEq

/-- The recorder's pair of a point. -/
def FvPoint.pair (point : FvPoint) : ℤ ×ₗ ℤ := toLex (point.recvTs, point.sequenceNo)

/-- What the freshest point has most of. -/
def FvPoint.freshness (point : FvPoint) : ℤ ×ₗ ℤ := toLex (point.sourceTs, point.sequenceNo)

/-- `eligible_fv_pair`. -/
def eligibleFvPair (fvHistory : List FvPoint) (boundary : ℤ × ℤ) : Option FvPoint :=
  bestBy (fun point => point.pair < toLex boundary) FvPoint.freshness fvHistory

/-- `_CachedFv`. -/
structure CachedFv where
  point : FvPoint
  sourceEpoch : ℤ
  messageId : Option String
  proofStatus : ProofStatus
  identity : StreamIdentity
  deriving DecidableEq

/-- `GuardFairValue`, validated. -/
def CachedFv.guardFairValue (cached : CachedFv) : Except PyExc GuardFairValue :=
  match cached.point.value with
  | .fin fv =>
    if hfv : 0 ≤ fv ∧ fv ≤ 1 then
      if hproof : cached.messageId = none → cached.proofStatus = .unavailableNoMessageId then
        .ok {
          fv := fv
          fvSourceTs := cached.point.sourceTs
          fvRecvTs := cached.point.recvTs
          fvSourceEpoch := cached.sourceEpoch
          messageId := cached.messageId
          proofStatus := cached.proofStatus
          fv_mem := hfv
          proof_honest := hproof }
      else .error ⟨.valueError,
        "proof_status must be 'unavailable_no_message_id' when message_id is None"⟩
    else .error ⟨.valueError, "price must be a native probability in [0, 1]"⟩
  | _ => .error ⟨.valueError, "price must be a native probability in [0, 1]"⟩

/-- `project_guard_fv`. -/
def projectGuardFv (fvCache : List CachedFv) (mintPair : ℤ × ℤ) (identity : StreamIdentity)
    (guardEnabled : Bool) : Except PyExc (Option GuardFairValue) :=
  if guardEnabled = false then .ok none
  else
    let sameStream := fvCache.filter (·.identity = identity)
    match eligibleFvPair (sameStream.map CachedFv.point) mintPair with
    | none => .ok none
    | some winner =>
      match sameStream.find? (·.point = winner) with
      | none => .error ⟨.exception, "StopIteration"⟩
      | some cached => cached.guardFairValue.map some

/-! ## The trust boundary -/

/-- The fields a factory forged. -/
def forgedFields (built : StrategyObservation) (observationSequence : ℤ)
    (guardFv : Option GuardFairValue) (owned : AssemblerOwnedFacts) (identity : StreamIdentity) :
    List String :=
  [("observation_sequence", decide (observationSequence = built.observationSequence)),
    ("guard_fv", decide (guardFv = built.guardFv)),
    ("identity", decide (identity = built.streamIdentity)),
    ("book_source_epoch", decide (owned.bookSourceEpoch = built.bookSourceEpoch)),
    ("market_status", decide (owned.marketStatus = built.marketStatus)),
    ("market_status_recv_ts", decide (owned.marketStatusRecvTs = built.marketStatusRecvTs)),
    ("market_status_epoch", decide (owned.marketStatusEpoch = built.marketStatusEpoch)),
    ("phase", decide (owned.phase = built.phase)),
    ("suspended", decide (owned.suspended = built.suspended)),
    ("match_state_recv_ts", decide (owned.matchStateRecvTs = built.matchStateRecvTs))].filterMap
      fun check => if check.2 then none else some check.1

/-- `_authenticate_owned_fields`. -/
def authenticateOwnedFields (built : StrategyObservation) (observationSequence : ℤ)
    (guardFv : Option GuardFairValue) (owned : AssemblerOwnedFacts) (identity : StreamIdentity) :
    Except PyExc Unit :=
  let mismatches := forgedFields built observationSequence guardFv owned identity
  if mismatches = [] then .ok ()
  else .error ⟨.valueError, "observation factory forged assembler-owned field(s); failing closed " ++
    "(REQ-020b/027, Gate #2 MAJOR-1): " ++ "; ".intercalate mismatches⟩

/-- `_OBSERVATION_AUTHENTICATED_EPOCH`: the epoch an observation authenticates for a source. -/
def observationAuthenticatedEpoch : MintSource → Option (AssemblerOwnedFacts → Option ℤ)
  | .book => some fun owned => some owned.bookSourceEpoch
  | .marketStatus => some AssemblerOwnedFacts.marketStatusEpoch
  | _ => none

/-- `_bind_mint_source_epoch`. -/
def bindMintSourceEpoch (tick : ObservationTick) : Except PyExc Unit :=
  match observationAuthenticatedEpoch tick.source with
  | none => .ok ()
  | some authenticated =>
    if some tick.sourceEpoch ≠ authenticated tick.owned then
      .error ⟨.valueError, "mint source_epoch disagrees with the observation-authenticated " ++
        "generation; failing closed with ZERO tape append (Gate #4 C-MAJOR-1)"⟩
    else .ok ()

/-! ## The cadence -/

/-- What the loop carries. -/
structure CadenceState (F : Type) where
  recorder : LiveRecorder F
  dir : SessionDir
  observationSequence : ℤ := 0
  fvCache : List CachedFv := []

/-- `CadenceRun`. -/
structure CadenceRun where
  observations : List StrategyObservation
  mintPairs : List (ℤ × ℤ)

variable (format : Json.FloatFormat F)

/-- `mint`. -/
def mint (recorder : LiveRecorder F) (dir : SessionDir) (event : MintEvent) :
    Except PyExc ((ℤ × ℤ) × LiveRecorder F × SessionDir) :=
  recorder.recordAndReturnPair format dir event.dump

/-- An FV arrival: sealed and cached. -/
def cacheArrival (state : CadenceState F) (arrival : FvArrival) : Except PyExc (CadenceState F) := do
  let (pair, recorder, dir) ← mint format state.recorder state.dir arrival.mintEvent
  return { state with
    recorder := recorder
    dir := dir
    fvCache := state.fvCache ++ [{
      point := ⟨arrival.sourceTs, pair.1, arrival.value, pair.2⟩
      sourceEpoch := arrival.sourceEpoch
      messageId := arrival.messageId
      proofStatus := arrival.proofStatus
      identity := arrival.identity }] }

/-- A tick: one observation and the pair it was minted at. -/
def mintObservation (guardEnabled : Bool) (state : CadenceState F) (tick : ObservationTick) :
    Except PyExc ((StrategyObservation × (ℤ × ℤ)) × CadenceState F) := do
  bindMintSourceEpoch tick
  let observationSequence := state.observationSequence + 1
  let (mintPair, recorder, dir) ← mint format state.recorder state.dir tick.mintEvent
  let guardFv ← projectGuardFv state.fvCache mintPair tick.identity guardEnabled
  let built ← tick.build observationSequence guardFv
  authenticateOwnedFields built observationSequence guardFv tick.owned tick.identity
  return ((built, mintPair), { state with recorder, dir, observationSequence })

/-- The loop of `run_cadence`. -/
def runCadenceFrom (guardEnabled : Bool) : CadenceState F → List CadenceEvent →
    Except PyExc (List (StrategyObservation × (ℤ × ℤ)) × CadenceState F)
  | state, [] => .ok ([], state)
  | state, .fvArrival arrival :: events => do
    let state ← cacheArrival format state arrival
    runCadenceFrom guardEnabled state events
  | state, .observationTick tick :: events => do
    let (minted, state) ← mintObservation format guardEnabled state tick
    let (rest, state) ← runCadenceFrom guardEnabled state events
    return (minted :: rest, state)

/-- `run_cadence`, and the recorder and the directory after it. -/
def runCadence (recorder : LiveRecorder F) (dir : SessionDir) (events : List CadenceEvent)
    (guardEnabled : Bool) : Except PyExc (CadenceRun × LiveRecorder F × SessionDir) := do
  let (minted, state) ← runCadenceFrom format guardEnabled ⟨recorder, dir, 0, []⟩ events
  return (⟨minted.map Prod.fst, minted.map Prod.snd⟩, state.recorder, state.dir)

/-! ## Generations -/

/-- One row of the scan. -/
def noteGeneration (perSource : String → Option ℤ) (row : Dict F) :
    Except PyExc (String → Option ℤ) :=
  match row.lookup "event_type" with
  | some (.str "MintEvent") =>
    match row.lookup "source", row.lookup "source_epoch" with
    | some (.str source), some (.int epoch) =>
      if (perSource source).all (· < epoch) then .ok (Function.update perSource source (some epoch))
      else .ok perSource
    | _, _ => .error ⟨.exception, "a MintEvent row without its source or epoch"⟩
  | _ => .ok perSource

/-- `read_durable_source_generations`. -/
def readDurableSourceGenerations (dir : SessionDir) : Except PyExc SourceGenerations := do
  let (_, events, _) ← readSessionStrict format dir
  let perSource ← events.foldlM noteGeneration fun _ => none
  return {
    bookSourceEpoch := (perSource "book").getD 0
    fvSourceEpoch := perSource "fv"
    marketStatusEpoch := perSource "market_status" }

/-- `resume_source_generations`. -/
def resumeSourceGenerations (prior : SourceGenerations) (guardEnabled : Bool) :
    SourceGenerations where
  bookSourceEpoch := prior.bookSourceEpoch + 1
  fvSourceEpoch := if guardEnabled then some (prior.fvSourceEpoch.getD 0 + 1) else none
  marketStatusEpoch := prior.marketStatusEpoch.map (· + 1)

end Veridex.MmStrategy
