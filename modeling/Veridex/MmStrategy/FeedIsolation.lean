import Veridex.MmStrategy.Assembler
import Veridex.MmStrategy.Runs

/-!
# Feed isolation

What a run of the assembler releases, tick by tick. `Minted` is what one tick does;
`runCadenceFrom_tick` finds it wherever the tick stands in a list. The `n`th event of a list is
sealed under the number `n + 1`, so `sealedArrivals` is the cache a tick projects from.

Results: `releaseTicks_of_run` (without the guard), `cadence_feed_isolated`.
-/

namespace Veridex.MmStrategy

open Veridex.Py Veridex.Lib Veridex.Runtime Veridex.Recording

variable {F : Type} {format : Json.FloatFormat F} {guardEnabled : Bool}

/-! ## One mint -/

theorem mint_eq (format : Json.FloatFormat F) (recorder : LiveRecorder F) (dir : SessionDir)
    (event : MintEvent) :
    mint format recorder dir event = .ok ((event.recvTs, recorder.seq + 1),
      recorder.call format dir (.record event.dump)) := by
  simp [mint, LiveRecorder.recordAndReturnPair, LiveRecorder.call, LiveRecorder.record,
    LiveRecorder.write, MintEvent.dump, Json.setField, intAt, List.lookup, bind, Except.bind, pure,
    Except.pure]

@[simp] theorem seq_call (recorder : LiveRecorder F) (dir : SessionDir) (call : Call F) :
    (recorder.call format dir call).1.seq = recorder.seq + 1 := by
  cases call <;> rfl

/-- An arrival, sealed under a number. -/
def FvArrival.cached (arrival : FvArrival) (sequenceNo : ℤ) : CachedFv where
  point := ⟨arrival.sourceTs, arrival.recvTs, arrival.value, sequenceNo⟩
  sourceEpoch := arrival.sourceEpoch
  messageId := arrival.messageId
  proofStatus := arrival.proofStatus
  identity := arrival.identity

theorem cacheArrival_eq (state : CadenceState F) (arrival : FvArrival) :
    cacheArrival format state arrival = .ok { state with
      recorder := (state.recorder.call format state.dir (.record arrival.mintEvent.dump)).1
      dir := (state.recorder.call format state.dir (.record arrival.mintEvent.dump)).2
      fvCache := state.fvCache ++ [arrival.cached (state.recorder.seq + 1)] } := by
  rw [cacheArrival, mint_eq]
  rfl

/-- The facts a released observation shares with the tick that minted it. -/
structure Authentic (tick : ObservationTick) (observationSequence : ℤ)
    (guardFv : Option GuardFairValue) (built : StrategyObservation) : Prop where
  observationSequence : built.observationSequence = observationSequence
  guardFv : built.guardFv = guardFv
  identity : built.streamIdentity = tick.identity
  bookSourceEpoch : built.bookSourceEpoch = tick.owned.bookSourceEpoch
  marketStatusEpoch : built.marketStatusEpoch = tick.owned.marketStatusEpoch

theorem Authentic.of_authenticate {tick : ObservationTick} {observationSequence : ℤ}
    {guardFv : Option GuardFairValue} {built : StrategyObservation}
    (h : authenticateOwnedFields built observationSequence guardFv tick.owned tick.identity =
      .ok ()) : Authentic tick observationSequence guardFv built := by
  unfold authenticateOwnedFields at h
  simp only at h
  split_ifs at h with hforged
  rw [forgedFields, List.filterMap_eq_nil_iff] at hforged
  simp only [List.mem_cons, List.not_mem_nil, or_false, forall_eq_or_imp, forall_eq,
    ite_eq_left_iff, reduceCtorEq, imp_false, Bool.not_eq_true, Bool.not_eq_false,
    decide_eq_true_eq] at hforged
  obtain ⟨hsequence, hguard, hidentity, hbook, -, -, hstatus, -⟩ := hforged
  exact ⟨hsequence.symm, hguard.symm, hidentity.symm, hbook.symm, hstatus.symm⟩

/-- What a tick mints. -/
structure Minted (format : Json.FloatFormat F) (guardEnabled : Bool) (state : CadenceState F)
    (tick : ObservationTick) (minted : StrategyObservation × (ℤ × ℤ)) (after : CadenceState F) :
    Prop where
  bound : bindMintSourceEpoch tick = .ok ()
  projected : projectGuardFv state.fvCache (tick.recvTs, state.recorder.seq + 1) tick.identity
    guardEnabled = .ok minted.1.guardFv
  built : tick.build (state.observationSequence + 1) minted.1.guardFv = .ok minted.1
  authentic : authenticateOwnedFields minted.1 (state.observationSequence + 1) minted.1.guardFv
    tick.owned tick.identity = .ok ()
  pair : minted.2 = (tick.recvTs, state.recorder.seq + 1)
  state_eq : after = { state with
    recorder := (state.recorder.call format state.dir (.record tick.mintEvent.dump)).1
    dir := (state.recorder.call format state.dir (.record tick.mintEvent.dump)).2
    observationSequence := state.observationSequence + 1 }

theorem mintObservation_ok {state after : CadenceState F} {tick : ObservationTick}
    {minted : StrategyObservation × (ℤ × ℤ)}
    (h : mintObservation format guardEnabled state tick = .ok (minted, after)) :
    Minted format guardEnabled state tick minted after := by
  obtain ⟨⟨⟩, hbound, h⟩ := bind_eq_ok.mp h
  obtain ⟨mint, hmint, h⟩ := bind_eq_ok.mp h
  rw [mint_eq] at hmint
  obtain rfl := Except.ok.inj hmint
  obtain ⟨guardFv, hprojected, h⟩ := bind_eq_ok.mp h
  obtain ⟨built, hbuilt, h⟩ := bind_eq_ok.mp h
  obtain ⟨⟨⟩, hauthentic, h⟩ := bind_eq_ok.mp h
  cases h
  have hguard := (Authentic.of_authenticate hauthentic).guardFv
  exact ⟨hbound, hguard ▸ hprojected, hguard ▸ hbuilt, hguard ▸ hauthentic, rfl, rfl⟩

/-! ## The ticks of a list -/

/-- The events that mint an observation. -/
def ticksOf (events : List CadenceEvent) : List ObservationTick :=
  events.filterMap fun
    | .fvArrival _ => none
    | .observationTick tick => some tick

/-- The observations of some ticks under no guard: no recorder and no cache. -/
def releaseTicks : ℤ → List ObservationTick → Except PyExc (List StrategyObservation)
  | _, [] => .ok []
  | observationSequence, tick :: ticks => do
    let built ← tick.build (observationSequence + 1) none
    let rest ← releaseTicks (observationSequence + 1) ticks
    return built :: rest

/-- **Without the guard** the arrivals play no part in what is released. -/
theorem releaseTicks_of_run {events : List CadenceEvent} {state after : CadenceState F}
    {minted : List (StrategyObservation × (ℤ × ℤ))}
    (h : runCadenceFrom format false state events = .ok (minted, after)) :
    releaseTicks state.observationSequence (ticksOf events) = .ok (minted.map Prod.fst) := by
  induction events generalizing state minted with
  | nil =>
    cases h
    rfl
  | cons event events ih =>
    cases event with
    | fvArrival arrival =>
      obtain ⟨middle, hmiddle, h⟩ := bind_eq_ok.mp h
      rw [cacheArrival_eq] at hmiddle
      obtain rfl := Except.ok.inj hmiddle
      have hrest := ih h
      exact hrest
    | observationTick tick =>
      obtain ⟨⟨first, middle⟩, hfirst, h⟩ := bind_eq_ok.mp h
      obtain ⟨⟨rest, last⟩, hrest, h⟩ := bind_eq_ok.mp h
      cases h
      have hminted := mintObservation_ok hfirst
      have hnone : first.1.guardFv = none := by
        have hprojected := hminted.projected
        simp only [projectGuardFv, if_pos] at hprojected
        exact (Except.ok.inj hprojected).symm
      have hbuilt := hminted.built
      rw [hnone] at hbuilt
      have hsequence : middle.observationSequence = state.observationSequence + 1 := by
        rw [hminted.state_eq]
      have htail := ih hrest
      rw [hsequence] at htail
      exact bind_eq_ok.mpr ⟨_, hbuilt, bind_eq_ok.mpr ⟨_, htail, rfl⟩⟩

/-! ## What a tick projects from -/

/-- The arrivals of some events, sealed after a number. -/
def sealedArrivals : ℤ → List CadenceEvent → List CachedFv
  | _, [] => []
  | seq, .fvArrival arrival :: events =>
    arrival.cached (seq + 1) :: sealedArrivals (seq + 1) events
  | seq, .observationTick _ :: events => sealedArrivals (seq + 1) events

/-- What a tick mints after some events, and where its observation stands. -/
structure MintedAt (format : Json.FloatFormat F) (guardEnabled : Bool) (seq : ℤ)
    (cache : List CachedFv) (before : List CadenceEvent) (tick : ObservationTick)
    (minted : List (StrategyObservation × (ℤ × ℤ))) : Prop where
  exists_minted : ∃ built pair, minted[(ticksOf before).length]? = some (built, pair) ∧
    pair = (tick.recvTs, seq + before.length + 1) ∧
    bindMintSourceEpoch tick = .ok () ∧
    (∃ observationSequence, Authentic tick observationSequence built.guardFv built) ∧
    projectGuardFv (cache ++ sealedArrivals seq before) pair tick.identity guardEnabled =
      .ok built.guardFv

/-- **A tick anywhere in a list**: its pair is its place in the list, and its leg is projected from
the arrivals before it. -/
theorem runCadenceFrom_tick {before after : List CadenceEvent} {tick : ObservationTick}
    {state last : CadenceState F} {minted : List (StrategyObservation × (ℤ × ℤ))}
    (h : runCadenceFrom format guardEnabled state (before ++ .observationTick tick :: after) =
      .ok (minted, last)) :
    MintedAt format guardEnabled state.recorder.seq state.fvCache before tick minted := by
  induction before generalizing state minted with
  | nil =>
    obtain ⟨⟨first, middle⟩, hfirst, h⟩ := bind_eq_ok.mp h
    obtain ⟨⟨rest, last'⟩, hrest, h⟩ := bind_eq_ok.mp h
    cases h
    have hminted := mintObservation_ok hfirst
    refine ⟨first.1, first.2, rfl, ?_, hminted.bound, ⟨_, .of_authenticate hminted.authentic⟩, ?_⟩
    · simpa using hminted.pair
    · simpa [sealedArrivals, hminted.pair] using hminted.projected
  | cons event before ih =>
    cases event with
    | fvArrival arrival =>
      obtain ⟨middle, hmiddle, h⟩ := bind_eq_ok.mp h
      rw [cacheArrival_eq] at hmiddle
      obtain rfl := Except.ok.inj hmiddle
      obtain ⟨built, pair, hat, hpair, hbound, hauthentic, hprojected⟩ := ih h
      refine ⟨built, pair, hat, ?_, hbound, hauthentic, ?_⟩
      · rw [hpair]
        simp
        omega
      · simpa [sealedArrivals] using hprojected
    | observationTick other =>
      obtain ⟨⟨first, middle⟩, hfirst, h⟩ := bind_eq_ok.mp h
      obtain ⟨⟨rest, last'⟩, hrest, h⟩ := bind_eq_ok.mp h
      cases h
      have hminted := mintObservation_ok hfirst
      obtain ⟨built, pair, hat, hpair, hbound, hauthentic, hprojected⟩ := ih hrest
      rw [hminted.state_eq] at hpair hprojected
      refine ⟨built, pair, ?_, ?_, hbound, hauthentic, ?_⟩
      · simpa [ticksOf] using hat
      · rw [hpair]
        simp
        omega
      · simpa [sealedArrivals] using hprojected

/-- An arrival of a list is in the cache under its place. -/
theorem mem_sealedArrivals {cached : CachedFv} {seq : ℤ} {events : List CadenceEvent} :
    cached ∈ sealedArrivals seq events ↔
      ∃ (i : ℕ) (arrival : FvArrival), events[i]? = some (.fvArrival arrival) ∧
        cached = arrival.cached (seq + i + 1) := by
  induction events generalizing seq with
  | nil => simp [sealedArrivals]
  | cons event events ih =>
    have hshift : (∃ (i : ℕ) (arrival : FvArrival), events[i]? = some (.fvArrival arrival) ∧
        cached = arrival.cached (seq + 1 + i + 1)) ↔
        ∃ (i : ℕ) (arrival : FvArrival), (event :: events)[i + 1]? = some (.fvArrival arrival) ∧
          cached = arrival.cached (seq + (i + 1 : ℕ) + 1) := by
      simp [add_comm, add_left_comm]
    cases event with
    | fvArrival arrival =>
      rw [sealedArrivals, List.mem_cons, ih, hshift]
      constructor
      · rintro (rfl | ⟨i, other, hi, rfl⟩)
        · exact ⟨0, arrival, rfl, by simp⟩
        · exact ⟨i + 1, other, hi, rfl⟩
      · rintro ⟨i, other, hi, rfl⟩
        cases i with
        | zero =>
          cases hi
          exact .inl (by simp)
        | succ i => exact .inr ⟨i, other, hi, rfl⟩
    | observationTick tick =>
      rw [sealedArrivals, ih, hshift]
      constructor
      · rintro ⟨i, other, hi, rfl⟩
        exact ⟨i + 1, other, hi, rfl⟩
      · rintro ⟨i, other, hi, rfl⟩
        cases i with
        | zero => cases hi
        | succ i => exact ⟨i, other, hi, rfl⟩

/-! ## The projection -/

/-- A cached arrival that a tick of a stream may see. -/
def CachedFv.VisibleTo (cached : CachedFv) (pair : ℤ × ℤ) (identity : StreamIdentity) : Prop :=
  cached.identity = identity ∧ cached.point.pair < toLex pair

/-- **The guarded projection** is the freshest visible arrival of the stream, or abstains. -/
theorem projectGuardFv_spec {cache : List CachedFv} {pair : ℤ × ℤ} {identity : StreamIdentity}
    {leg : Option GuardFairValue} (h : projectGuardFv cache pair identity true = .ok leg) :
    (leg = none ∧ ∀ cached ∈ cache, ¬ cached.VisibleTo pair identity) ∨
    ∃ cached ∈ cache, cached.VisibleTo pair identity ∧
      (∃ guardFv, leg = some guardFv ∧ cached.guardFairValue = .ok guardFv) ∧
      ∀ other ∈ cache, other.VisibleTo pair identity →
        other.point.freshness ≤ cached.point.freshness := by
  simp only [projectGuardFv, Bool.true_eq_false, if_false] at h
  split at h
  · next hnone =>
    cases h
    refine .inl ⟨rfl, ?_⟩
    rintro cached hmem ⟨hidentity, hbelow⟩
    have hineligible := bestBy_none_iff.mp hnone cached.point
      (List.mem_map_of_mem (List.mem_filter.mpr ⟨hmem, by simpa using hidentity⟩))
    simp [hbelow] at hineligible
  · next winner hwinner =>
    obtain ⟨-, hbelow, hmax⟩ := bestBy_spec hwinner
    split at h
    · cases h
    · next cached hfind =>
      obtain ⟨guardFv, hguard, rfl⟩ : ∃ guardFv, cached.guardFairValue = .ok guardFv ∧
          leg = some guardFv := by
        cases hguard : cached.guardFairValue with
        | error e => simp [hguard, Except.map] at h
        | ok guardFv =>
          rw [hguard] at h
          exact ⟨guardFv, rfl, (Except.ok.inj h).symm⟩
      have hmem := List.mem_filter.mp (List.mem_of_find?_eq_some hfind)
      have hpoint : cached.point = winner := by simpa using List.find?_some hfind
      refine .inr ⟨cached, hmem.1, ⟨by simpa using hmem.2, ?_⟩, ⟨guardFv, rfl, hguard⟩, ?_⟩
      · rw [hpoint]
        simpa using hbelow
      · rintro other hother ⟨hidentity, hvisible⟩
        rw [hpoint]
        exact hmax other.point
          (List.mem_map_of_mem (List.mem_filter.mpr ⟨hother, by simpa using hidentity⟩))
          (by simpa using hvisible)

/-! ## Fresh runs -/

/-- The run of some events on a fresh session. -/
def runFresh (format : Json.FloatFormat F) (startMeta : StartMeta) (events : List CadenceEvent)
    (guardEnabled : Bool) : Except PyExc (CadenceRun × LiveRecorder F × SessionDir) :=
  runCadence format (LiveRecorder.open ⟨none, none⟩ startMeta.1).1
    (LiveRecorder.open (F := F) ⟨none, none⟩ startMeta.1).2 events guardEnabled

theorem runFresh_ok {startMeta : StartMeta} {events : List CadenceEvent} {run : CadenceRun}
    {after : LiveRecorder F × SessionDir}
    (h : runFresh format startMeta events guardEnabled = .ok (run, after)) :
    ∃ minted last, runCadenceFrom format guardEnabled
        ⟨(LiveRecorder.open ⟨none, none⟩ startMeta.1).1,
          (LiveRecorder.open (F := F) ⟨none, none⟩ startMeta.1).2, 0, []⟩ events =
          .ok (minted, last) ∧
      run.observations = minted.map Prod.fst ∧ run.mintPairs = minted.map Prod.snd ∧
      after = (last.recorder, last.dir) := by
  obtain ⟨⟨minted, last⟩, hminted, h⟩ := bind_eq_ok.mp h
  cases h
  exact ⟨minted, last, hminted, rfl, rfl, rfl⟩

/-- The `i`th event of a list is an arrival of a stream, sealed below a pair. -/
def ArrivesBelow (events : List CadenceEvent) (pair : ℤ × ℤ) (identity : StreamIdentity) (i : ℕ)
    (arrival : FvArrival) : Prop :=
  events[i]? = some (.fvArrival arrival) ∧ arrival.identity = identity ∧
    toLex (arrival.recvTs, (i : ℤ) + 1) < toLex pair

/-- A leg is the arrival of a list with the greatest `(source_ts, sequence_no)` among those of a
stream below a pair, and abstains where there is none. -/
def IsFreshestLeg (events : List CadenceEvent) (pair : ℤ × ℤ) (identity : StreamIdentity)
    (leg : Option GuardFairValue) : Prop :=
  (leg = none ∧ ∀ i arrival, ¬ ArrivesBelow events pair identity i arrival) ∨
  ∃ i arrival guardFv, ArrivesBelow events pair identity i arrival ∧ leg = some guardFv ∧
    (arrival.cached (i + 1)).guardFairValue = .ok guardFv ∧
    ∀ j other, ArrivesBelow events pair identity j other →
      toLex (other.sourceTs, (j : ℤ) + 1) ≤ toLex (arrival.sourceTs, (i : ℤ) + 1)

/-- What a fresh cache shows a tick are the arrivals below its pair. -/
theorem visible_sealedArrivals {events : List CadenceEvent} {pair : ℤ × ℤ}
    {identity : StreamIdentity} {cached : CachedFv} :
    cached ∈ sealedArrivals 0 events ∧ cached.VisibleTo pair identity ↔
      ∃ i arrival, ArrivesBelow events pair identity i arrival ∧
        cached = arrival.cached (i + 1) := by
  rw [mem_sealedArrivals]
  constructor
  · rintro ⟨⟨i, arrival, hi, rfl⟩, hidentity, hbelow⟩
    rw [zero_add] at hbelow ⊢
    exact ⟨i, arrival, ⟨hi, hidentity, hbelow⟩, rfl⟩
  · rintro ⟨i, arrival, ⟨hi, hidentity, hbelow⟩, rfl⟩
    exact ⟨⟨i, arrival, hi, by rw [zero_add]⟩, hidentity, hbelow⟩

theorem isFreshestLeg_of_project {events : List CadenceEvent} {pair : ℤ × ℤ}
    {identity : StreamIdentity} {leg : Option GuardFairValue}
    (h : projectGuardFv (sealedArrivals 0 events) pair identity true = .ok leg) :
    IsFreshestLeg events pair identity leg := by
  rcases projectGuardFv_spec h with ⟨rfl, hnone⟩ |
    ⟨cached, hmem, hvisible, ⟨guardFv, rfl, hguard⟩, hmax⟩
  · refine .inl ⟨rfl, fun i arrival harrives => ?_⟩
    obtain ⟨hmem, hvisible⟩ := visible_sealedArrivals.mpr ⟨i, arrival, harrives, rfl⟩
    exact hnone _ hmem hvisible
  · obtain ⟨i, arrival, harrives, rfl⟩ := visible_sealedArrivals.mp ⟨hmem, hvisible⟩
    refine .inr ⟨i, arrival, guardFv, harrives, rfl, hguard, fun j other hother => ?_⟩
    obtain ⟨hmem', hvisible'⟩ := visible_sealedArrivals.mpr ⟨j, other, hother, rfl⟩
    exact hmax _ hmem' hvisible'

/-- The freshest leg depends on the arrivals below the pair alone. -/
theorem IsFreshestLeg.unique {events₁ events₂ : List CadenceEvent} {pair : ℤ × ℤ}
    {identity : StreamIdentity} {leg₁ leg₂ : Option GuardFairValue}
    (hsame : ∀ i arrival, ArrivesBelow events₁ pair identity i arrival ↔
      ArrivesBelow events₂ pair identity i arrival)
    (h₁ : IsFreshestLeg events₁ pair identity leg₁)
    (h₂ : IsFreshestLeg events₂ pair identity leg₂) : leg₁ = leg₂ := by
  rcases h₁ with ⟨rfl, hnone₁⟩ | ⟨i, arrival, guardFv, harrives, rfl, hguard, hmax⟩
  · rcases h₂ with ⟨rfl, -⟩ | ⟨j, other, _, hother, -⟩
    · rfl
    · exact absurd ((hsame j other).mpr hother) (hnone₁ j other)
  · rcases h₂ with ⟨rfl, hnone₂⟩ | ⟨j, other, guardFv', hother, rfl, hguard', hmax'⟩
    · exact absurd ((hsame i arrival).mp harrives) (hnone₂ i arrival)
    · have hle := hmax j other ((hsame j other).mpr hother)
      have hge := hmax' i arrival ((hsame i arrival).mp harrives)
      -- the sequence number is part of the order, so the two are one event
      obtain ⟨-, hseq⟩ := Prod.ext_iff.mp (toLex.injective (le_antisymm hle hge))
      obtain rfl : j = i := by simpa using hseq
      have hevent : other = arrival := by
        have heq := hother.1.symm.trans ((hsame j arrival).mp harrives).1
        simpa using heq
      subst hevent
      rw [hguard] at hguard'
      rw [Except.ok.inj hguard']

/-- A tick of a fresh guarded run carries the freshest arrival before it. -/
theorem runFresh_tick {startMeta : StartMeta} {before after : List CadenceEvent}
    {tick : ObservationTick} {run : CadenceRun} {rest : LiveRecorder F × SessionDir}
    (h : runFresh format startMeta (before ++ .observationTick tick :: after) true =
      .ok (run, rest)) :
    ∃ observation, run.observations[(ticksOf before).length]? = some observation ∧
      run.mintPairs[(ticksOf before).length]? = some (tick.recvTs, (before.length : ℤ) + 1) ∧
      observation.streamIdentity = tick.identity ∧
      IsFreshestLeg before (tick.recvTs, (before.length : ℤ) + 1) tick.identity
        observation.guardFv := by
  obtain ⟨minted, last, hminted, hobservations, hpairs, -⟩ := runFresh_ok h
  obtain ⟨built, pair, hat, hpair, -, ⟨_, hauthentic⟩, hprojected⟩ := runCadenceFrom_tick hminted
  obtain rfl : pair = (tick.recvTs, (before.length : ℤ) + 1) := by
    simpa [LiveRecorder.open] using hpair
  refine ⟨built, ?_, ?_, hauthentic.identity, isFreshestLeg_of_project hprojected⟩
  · rw [hobservations, List.getElem?_map, hat]
    rfl
  · rw [hpairs, List.getElem?_map, hat]
    rfl

/-- **The feed is isolated.** Without the guard two lists with the same ticks release the same
observations, and so the same decisions and states. With it, a tick carries the freshest arrival of
its stream among those minted before it and sealed below its pair, and no other plays a part. -/
theorem cadence_feed_isolated (format : Json.FloatFormat F) (platform : Platform)
    (config : StrategyConfig) (sessionId : String) :
    (∀ (startMeta₁ startMeta₂ : StartMeta) (events₁ events₂ : List CadenceEvent)
        (run₁ run₂ : CadenceRun) (after₁ after₂ : LiveRecorder F × SessionDir),
        ticksOf events₁ = ticksOf events₂ →
        runFresh format startMeta₁ events₁ false = .ok (run₁, after₁) →
        runFresh format startMeta₂ events₂ false = .ok (run₂, after₂) →
        run₁.observations = run₂.observations ∧
          ∀ state, decideAll platform config sessionId state run₁.observations =
            decideAll platform config sessionId state run₂.observations) ∧
    (∀ (startMeta : StartMeta) (before after : List CadenceEvent) (tick : ObservationTick)
        (run : CadenceRun) (rest : LiveRecorder F × SessionDir),
        runFresh format startMeta (before ++ .observationTick tick :: after) true =
          .ok (run, rest) →
        ∃ observation, run.observations[(ticksOf before).length]? = some observation ∧
          run.mintPairs[(ticksOf before).length]? = some (tick.recvTs, (before.length : ℤ) + 1) ∧
          observation.streamIdentity = tick.identity ∧
          IsFreshestLeg before (tick.recvTs, (before.length : ℤ) + 1) tick.identity
            observation.guardFv) ∧
    (∀ (pair : ℤ × ℤ) (identity : StreamIdentity) (events₁ events₂ : List CadenceEvent)
        (leg₁ leg₂ : Option GuardFairValue),
        (∀ i arrival, ArrivesBelow events₁ pair identity i arrival ↔
          ArrivesBelow events₂ pair identity i arrival) →
        IsFreshestLeg events₁ pair identity leg₁ → IsFreshestLeg events₂ pair identity leg₂ →
        leg₁ = leg₂) := by
  refine ⟨?_, fun _ _ _ _ _ _ h => runFresh_tick h, fun _ _ _ _ _ _ hsame h₁ h₂ =>
    h₁.unique hsame h₂⟩
  intro startMeta₁ startMeta₂ events₁ events₂ run₁ run₂ after₁ after₂ hticks h₁ h₂
  obtain ⟨minted₁, last₁, hminted₁, hobservations₁, -⟩ := runFresh_ok h₁
  obtain ⟨minted₂, last₂, hminted₂, hobservations₂, -⟩ := runFresh_ok h₂
  have hrelease₁ := releaseTicks_of_run hminted₁
  have hrelease₂ := releaseTicks_of_run hminted₂
  rw [hticks] at hrelease₁
  have hsame : run₁.observations = run₂.observations := by
    rw [hobservations₁, hobservations₂]
    exact Except.ok.inj (hrelease₁.symm.trans hrelease₂)
  exact ⟨hsame, fun state => by rw [hsame]⟩

/-! ## Ticks that report what they are given -/

/-- A frame that carries the leg it is given, at a book generation. -/
def echoFrame (sequence bookSourceEpoch asOfTs : ℤ) (leg : Option GuardFairValue) :
    Except PyExc StrategyObservation :=
  if h : ∀ guardFv ∈ leg, guardFv.fvRecvTs ≤ asOfTs then
    .ok { healthyFrame sequence asOfTs (1 / 2) (3 / 5) [] with
      bookSourceEpoch := bookSourceEpoch
      guardFv := leg
      fvRecvTs_le := h }
  else .error ⟨.valueError, "fv_recv_ts is after as_of_ts"⟩

/-- A tick that declares what its frame reports. -/
def echoTick (source : MintSource) (hsource : source ≠ .fv) (epoch asOfTs : ℤ) :
    ObservationTick where
  source := source
  sourceEpoch := epoch
  recvTs := asOfTs
  owned := ⟨epoch, .active, some asOfTs, some 0, 1, false, asOfTs⟩
  identity := ⟨1, "m", "yes", "t"⟩
  build := fun sequence leg => echoFrame sequence epoch asOfTs leg
  source_ne_fv := hsource

/-- An arrival for the stream of `echoTick`. -/
def echoArrival (sourceTs recvTs : ℤ) : FvArrival where
  sourceTs := sourceTs
  recvTs := recvTs
  value := .fin 0
  sourceEpoch := 1
  identity := ⟨1, "m", "yes", "t"⟩

/-- A start meta. -/
def plainMeta : StartMeta :=
  ⟨{ sessionTs := 0, endpoints := ∅, toolVersion := "", configHash := "", sourceProvenance := ∅,
     fixtureIds := [] }, rfl⟩

theorem book_ne_fv : MintSource.book ≠ .fv := by decide

/-- One tick, and an arrival minted after it with an earlier receive clock. -/
def lateArrivalEvents : List CadenceEvent :=
  [.observationTick (echoTick .book book_ne_fv 0 100), .fvArrival (echoArrival 7 50)]

/-- The arrivals of the whole list do not decide a leg: the tick of `lateArrivalEvents` abstains,
while an arrival is sealed below its pair. -/
theorem late_arrival_unseen :
    ¬ ∀ (startMeta : StartMeta) (before after : List CadenceEvent) (tick : ObservationTick)
        (run : CadenceRun) (rest : LiveRecorder Json.FloatText × SessionDir),
        runFresh Json.textFormat startMeta (before ++ .observationTick tick :: after) true =
          .ok (run, rest) →
        ∃ observation, run.observations[(ticksOf before).length]? = some observation ∧
          IsFreshestLeg (before ++ .observationTick tick :: after)
            (tick.recvTs, (before.length : ℤ) + 1) tick.identity observation.guardFv := by
  intro h
  obtain ⟨observation, hat, hleg⟩ := h plainMeta [] [.fvArrival (echoArrival 7 50)]
    (echoTick .book (by decide) 0 100) _ _ rfl
  have harrives : ArrivesBelow lateArrivalEvents (100, 1) ⟨1, "m", "yes", "t"⟩ 1
      (echoArrival 7 50) := ⟨rfl, rfl, by decide⟩
  have hnone : observation.guardFv = none := by
    cases hat
    rfl
  rcases hleg with ⟨-, hempty⟩ | ⟨_, _, _, -, hsome, -⟩
  · exact hempty 1 (echoArrival 7 50) harrives
  · rw [hnone] at hsome
    cases hsome

/-- The arrival on either side of the tick, without the guard and with it. -/
theorem cadence_feed_isolated_late :
    let tick := echoTick .book (by decide) 0 100
    let arrival := CadenceEvent.fvArrival (echoArrival 7 50)
    ∃ (run₁ run₂ run₃ : CadenceRun) (after₁ after₂ after₃ : LiveRecorder Json.FloatText × SessionDir)
        (observation : StrategyObservation),
      runFresh Json.textFormat plainMeta [.observationTick tick, arrival] false =
        .ok (run₁, after₁) ∧
      runFresh Json.textFormat plainMeta [arrival, .observationTick tick] false =
        .ok (run₂, after₂) ∧
      run₁.observations = run₂.observations ∧
      runFresh Json.textFormat plainMeta [arrival, .observationTick tick] true =
        .ok (run₃, after₃) ∧
      run₃.observations[0]? = some observation ∧
      IsFreshestLeg [arrival] (100, 2) ⟨1, "m", "yes", "t"⟩ observation.guardFv := by
  intro tick arrival
  have hisolated := cadence_feed_isolated Json.textFormat flatPlatform (promptConfig false) "s"
  have hsame := hisolated.1 plainMeta plainMeta [.observationTick tick, arrival]
    [arrival, .observationTick tick] _ _ _ _ rfl rfl rfl
  obtain ⟨observation, hat, -, -, hleg⟩ :=
    hisolated.2.1 plainMeta [arrival] [] tick _ _ rfl
  exact ⟨_, _, _, _, _, _, observation, rfl, rfl, hsame.1, rfl, hat, hleg⟩

end Veridex.MmStrategy
