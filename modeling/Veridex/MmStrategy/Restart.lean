import Veridex.MmStrategy.FeedIsolation
import Veridex.MmStrategy.WatermarkRuns

/-!
# Generations across a restart

The epochs of an observation are its tick's declared facts; the epochs on the tape are those of the
rows. `_bind_mint_source_epoch` ties the two for a book tick's book epoch and a market-status tick's
status epoch, and for no other declared epoch, so a tick can release an epoch that no row carries.

Results: `readDurableSourceGenerations_run` (what a resume reads), `restart_generations_iff`.
-/

namespace Veridex.MmStrategy

open Veridex.Py Veridex.Lib Veridex.Lib.Json Veridex.Runtime Veridex.Recording

variable {F : Type} {format : FloatFormat F} {guardEnabled : Bool}

/-! ## The tape of a run -/

/-- The calls a list of events makes on the recorder. -/
def mintCalls (events : List CadenceEvent) : List (Call F) :=
  events.map fun event => .record event.mintEvent.dump

theorem appendAll_concat (tape : Tape F) (calls : List (Call F)) (call : Call F) :
    tape.appendAll (calls ++ [call]) = (tape.appendAll calls).append call := by
  simp [Tape.appendAll]

/-- **A run of the assembler** records its events, in order. -/
theorem Records.cadence {startMeta : LiveRecorderSessionMeta} {events : List CadenceEvent}
    {state last : CadenceState F} {tape : Tape F}
    {minted : List (StrategyObservation × (ℤ × ℤ))}
    (h : runCadenceFrom format guardEnabled state events = .ok (minted, last))
    (hrecords : Records format startMeta tape state.recorder state.dir) :
    Records format startMeta (tape.appendAll (mintCalls events)) last.recorder last.dir := by
  induction events generalizing state tape minted with
  | nil =>
    cases h
    exact hrecords
  | cons event events ih =>
    have hnext := hrecords.append (.record event.mintEvent.dump)
    cases event with
    | fvArrival arrival =>
      obtain ⟨middle, hmiddle, h⟩ := bind_eq_ok.mp h
      rw [cacheArrival_eq] at hmiddle
      obtain rfl := Except.ok.inj hmiddle
      exact ih h hnext
    | observationTick tick =>
      obtain ⟨⟨first, middle⟩, hfirst, h⟩ := bind_eq_ok.mp h
      obtain ⟨⟨rest, last'⟩, hrest, h⟩ := bind_eq_ok.mp h
      cases h
      have hstate := (mintObservation_ok hfirst).state_eq
      refine ih hrest ?_
      rw [hstate]
      exact hnext

/-! ## The greatest epochs -/

/-- The rows of a source, and their epochs. -/
def epochsOf (events : List CadenceEvent) (source : String) : List ℤ :=
  (events.filter fun event => event.mintEvent.source.text = source).map
    (·.mintEvent.sourceEpoch)

theorem epochsOf_concat (events : List CadenceEvent) (event : CadenceEvent) (source : String) :
    epochsOf (events ++ [event]) source =
      if event.mintEvent.source.text = source then
        epochsOf events source ++ [event.mintEvent.sourceEpoch]
      else epochsOf events source := by
  unfold epochsOf
  split_ifs with h <;> simp [h]

theorem max?_concat (xs : List ℤ) (x : ℤ) :
    (xs ++ [x]).max? = some (xs.max?.elim x (max · x)) := by
  cases xs with
  | nil => rfl
  | cons y ys =>
    simp only [List.cons_append, List.max?_cons', List.foldl_append, List.foldl_cons,
      List.foldl_nil, Option.elim_some]

/-- A mint's row is an event, with its source and epoch. -/
theorem row_mint (seq : ℤ) (event : MintEvent) :
    let row : Dict F := sortedFields (Call.payload seq (.record event.dump))
    row.lookup "event_type" = some (.str "MintEvent") ∧
      row.lookup "source" = some (.str event.source.text) ∧
      row.lookup "source_epoch" = some (.int event.sourceEpoch) := by
  simp [Call.payload, lookup_sortedFields, MintEvent.dump, setField, List.lookup, sorted]

theorem noteGeneration_mint (epochs : String → List ℤ) (seq : ℤ) (event : MintEvent) :
    noteGeneration (fun source => (epochs source).max?)
        (sortedFields (Call.payload (F := F) seq (.record event.dump))) =
      .ok fun source => (if event.source.text = source then epochs source ++ [event.sourceEpoch]
        else epochs source).max? := by
  obtain ⟨htype, hsource, hepoch⟩ := row_mint (F := F) seq event
  simp only [noteGeneration, htype, hsource, hepoch]
  split_ifs with hbelow
  · refine congrArg Except.ok (funext fun source => ?_)
    by_cases h : event.source.text = source
    · subst h
      cases hmax : (epochs event.source.text).max? with
      | none => simp [max?_concat, hmax]
      | some greatest =>
        have hlt : greatest < event.sourceEpoch := by simpa [hmax] using hbelow
        simp [max?_concat, hmax, max_eq_right hlt.le]
    · simp [h, Function.update_of_ne (Ne.symm h)]
  · refine congrArg Except.ok (funext fun source => ?_)
    by_cases h : event.source.text = source
    · subst h
      cases hmax : (epochs event.source.text).max? with
      | none => simp [hmax] at hbelow
      | some greatest =>
        have hle : event.sourceEpoch ≤ greatest := by simpa [hmax] using hbelow
        simp [max?_concat, hmax, max_eq_left hle]
    · simp [h]

theorem foldlM_noteGeneration (events : List CadenceEvent) :
    ((Tape.empty : Tape F).appendAll (mintCalls events)).rows.foldlM noteGeneration
      (fun _ => none) = .ok fun source => (epochsOf events source).max? := by
  induction events using List.reverseRecOn with
  | nil => rfl
  | append_singleton events event ih =>
    have hnote := noteGeneration_mint (F := F) (epochsOf events)
      (((Tape.empty : Tape F).appendAll (mintCalls events)).lastSeq + 1) event.mintEvent
    rw [mintCalls, List.map_append, ← mintCalls, List.map_singleton, appendAll_concat, Tape.append,
      List.foldlM_append, ih]
    simp only [bind, Except.bind, List.foldlM_cons, List.foldlM_nil, hnote, pure, Except.pure,
      epochsOf_concat]

theorem isGap_mint (seq : ℤ) (event : MintEvent) :
    isGap (sortedFields (Call.payload (F := F) seq (.record event.dump))) = false := by
  rw [isGap, (row_mint seq event).1]
  simp

theorem rows_notGap (events : List CadenceEvent) :
    ∀ row ∈ ((Tape.empty : Tape F).appendAll (mintCalls events)).rows, isGap row = false := by
  induction events using List.reverseRecOn with
  | nil => simp [mintCalls, Tape.appendAll, Tape.empty]
  | append_singleton events event ih =>
    rw [mintCalls, List.map_append, ← mintCalls, List.map_singleton, appendAll_concat, Tape.append]
    intro row hrow
    rcases List.mem_append.mp hrow with hrow | hrow
    · exact ih row hrow
    · rw [List.mem_singleton.mp hrow]
      exact isGap_mint _ _

/-- **What a resume reads** from the tape of a fresh run. -/
theorem readDurableSourceGenerations_run {startMeta : StartMeta} {events : List CadenceEvent}
    {run : CadenceRun} {recorder : LiveRecorder F} {dir : SessionDir}
    (h : runFresh format startMeta events guardEnabled = .ok (run, recorder, dir)) :
    readDurableSourceGenerations format dir = .ok {
      bookSourceEpoch := (epochsOf events "book").max?.getD 0
      fvSourceEpoch := (epochsOf events "fv").max?
      marketStatusEpoch := (epochsOf events "market_status").max? } := by
  obtain ⟨minted, last, hminted, -, -, hafter⟩ := runFresh_ok h
  obtain ⟨-, rfl⟩ := Prod.ext_iff.mp hafter
  have hrecords := Records.cadence hminted records_open
  have hrows : ((Tape.empty : Tape F).appendAll (mintCalls events)).rows.filter (!isGap ·) =
      ((Tape.empty : Tape F).appendAll (mintCalls events)).rows :=
    List.filter_eq_self.mpr fun row hrow => by simp [rows_notGap events row hrow]
  simp only [readDurableSourceGenerations, hrecords.disk, readSessionStrict_tape, hrows, bind,
    Except.bind, foldlM_noteGeneration, pure, Except.pure]

/-! ## What the ticks release -/

/-- The epochs of an observation: its tick's, and the leg's among some. -/
structure Released (guardEnabled : Bool) (fvEpochs : Set ℤ) (tick : ObservationTick)
    (observation : StrategyObservation) : Prop where
  bound : bindMintSourceEpoch tick = .ok ()
  bookSourceEpoch : observation.bookSourceEpoch = tick.owned.bookSourceEpoch
  marketStatusEpoch : observation.marketStatusEpoch = tick.owned.marketStatusEpoch
  leg : ∀ leg ∈ observation.guardFv, guardEnabled = true ∧ leg.fvSourceEpoch ∈ fvEpochs

theorem guardFairValue_epoch {cached : CachedFv} {guardFv : GuardFairValue}
    (h : cached.guardFairValue = .ok guardFv) : guardFv.fvSourceEpoch = cached.sourceEpoch := by
  unfold CachedFv.guardFairValue at h
  split at h
  · split_ifs at h
    rw [← Except.ok.inj h]
  · cases h

theorem Minted.released {state after : CadenceState F} {tick : ObservationTick}
    {minted : StrategyObservation × (ℤ × ℤ)} {fvEpochs : Set ℤ}
    (h : Minted format guardEnabled state tick minted after)
    (hcache : ∀ cached ∈ state.fvCache, cached.sourceEpoch ∈ fvEpochs) :
    Released guardEnabled fvEpochs tick minted.1 := by
  have hauthentic := Authentic.of_authenticate h.authentic
  refine ⟨h.bound, hauthentic.bookSourceEpoch, hauthentic.marketStatusEpoch, ?_⟩
  intro leg hleg
  have hprojected := h.projected
  cases guardEnabled with
  | false =>
    rw [projectGuardFv, if_pos rfl] at hprojected
    rw [← Except.ok.inj hprojected] at hleg
    cases hleg
  | true =>
    rcases projectGuardFv_spec hprojected with ⟨hnone, -⟩ |
      ⟨cached, hmem, -, ⟨guardFv, hsome, hguard⟩, -⟩
    · rw [hnone] at hleg
      cases hleg
    · obtain rfl : guardFv = leg := by
        rw [hsome] at hleg
        exact Option.some.inj hleg
      exact ⟨rfl, guardFairValue_epoch hguard ▸ hcache cached hmem⟩

/-- Each tick of a run releases one observation, in order. -/
theorem runCadenceFrom_released {events : List CadenceEvent} {state last : CadenceState F}
    {minted : List (StrategyObservation × (ℤ × ℤ))} {fvEpochs : Set ℤ}
    (h : runCadenceFrom format guardEnabled state events = .ok (minted, last))
    (hcache : ∀ cached ∈ state.fvCache, cached.sourceEpoch ∈ fvEpochs)
    (hevents : ∀ arrival, .fvArrival arrival ∈ events → arrival.sourceEpoch ∈ fvEpochs) :
    List.Forall₂ (Released guardEnabled fvEpochs) (ticksOf events) (minted.map Prod.fst) := by
  induction events generalizing state minted with
  | nil =>
    cases h
    exact .nil
  | cons event events ih =>
    have hrest := fun arrival hmem => hevents arrival (List.mem_cons_of_mem _ hmem)
    cases event with
    | fvArrival arrival =>
      obtain ⟨middle, hmiddle, h⟩ := bind_eq_ok.mp h
      rw [cacheArrival_eq] at hmiddle
      obtain rfl := Except.ok.inj hmiddle
      refine ih h ?_ hrest
      intro cached hcached
      rcases List.mem_append.mp hcached with hcached | hcached
      · exact hcache cached hcached
      · rw [List.mem_singleton.mp hcached]
        exact hevents arrival List.mem_cons_self
    | observationTick tick =>
      obtain ⟨⟨first, middle⟩, hfirst, h⟩ := bind_eq_ok.mp h
      obtain ⟨⟨rest, last'⟩, htail, h⟩ := bind_eq_ok.mp h
      cases h
      have hminted := mintObservation_ok hfirst
      refine .cons (hminted.released hcache) (ih htail ?_ hrest)
      rw [hminted.state_eq]
      exact hcache

/-! ## The strategy's watermark -/

/-- The epochs a state holds are those of observations. -/
structure Witnessed (observations : List StrategyObservation) (state : StrategyState) : Prop where
  book : ∀ epoch ∈ state.lastBookSourceEpoch, ∃ o ∈ observations, o.bookSourceEpoch = epoch
  guard : ∀ watermark ∈ state.guardWatermark, ∃ o ∈ observations, ∃ leg ∈ o.guardFv,
    leg.fvSourceEpoch = watermark.fvSourceEpoch
  seeded : observations ≠ [] → state.lastBookSourceEpoch ≠ none

theorem Witnessed.init : Witnessed [] {} where
  book := by simp
  guard := by simp
  seeded h := absurd rfl h

theorem Witnessed.mono {observations more : List StrategyObservation} {state : StrategyState}
    (h : Witnessed observations state) (hseeded : state.lastBookSourceEpoch ≠ none) :
    Witnessed (observations ++ more) state where
  book epoch hepoch := by
    obtain ⟨o, ho, hbook⟩ := h.book epoch hepoch
    exact ⟨o, List.mem_append_left _ ho, hbook⟩
  guard watermark hwatermark := by
    obtain ⟨o, ho, leg, hleg, hepoch⟩ := h.guard watermark hwatermark
    exact ⟨o, List.mem_append_left _ ho, leg, hleg, hepoch⟩
  seeded _ := hseeded

theorem Witnessed.step {platform : Platform} {config : StrategyConfig}
    {observations : List StrategyObservation} {observation : StrategyObservation}
    {state nextState : StrategyState} {decision : StrategyDecision}
    (h : Witnessed observations state)
    (hmoves : Moves platform observation state config decision nextState) :
    Witnessed (observations ++ [observation]) nextState := by
  rcases hmoves.accepted with ⟨hrejected, rfl⟩ | ⟨-, hwatermark⟩
  · obtain ⟨lastEpoch, hlast, -⟩ := isRejected_iff.mp hrejected
    exact h.mono (by simp [hlast])
  · simp only [StrategyState.watermark, Watermark.mk.injEq] at hwatermark
    obtain ⟨-, hbook, -, -, -, hguard, -⟩ := hwatermark
    refine ⟨?_, ?_, fun _ => by simp [hbook, advanceWatermark]⟩
    · rintro epoch hepoch
      rw [hbook] at hepoch
      exact ⟨observation, by simp, Option.some.inj hepoch⟩
    · rintro watermark hmem
      have hnext : watermark ∈ nextGuardWatermark observation state config := by
        rw [hguard] at hmem
        exact hmem
      unfold nextGuardWatermark at hnext
      split_ifs at hnext
      · cases hleg : observation.guardFv with
        | none =>
          rw [hleg] at hnext
          obtain ⟨o, ho, leg, hmem, hepoch⟩ := h.guard watermark hnext
          exact ⟨o, List.mem_append_left _ ho, leg, hmem, hepoch⟩
        | some leg =>
          rw [hleg] at hnext
          obtain rfl := Option.some.inj hnext
          exact ⟨observation, by simp, leg, hleg, rfl⟩
      · cases hnext

theorem Witnessed.of_decideAll {platform : Platform} {config : StrategyConfig} {sessionId : String}
    {observations : List StrategyObservation} {decisions : List StrategyDecision}
    {state : StrategyState}
    (h : decideAll platform config sessionId {} observations = .ok (decisions, state)) :
    Witnessed observations state := by
  obtain ⟨frames, rfl, -, hrun⟩ := run_of_decideAll h
  refine hrun.invariant (fun frames state => Witnessed (frames.map Prod.fst) state) .init ?_
  intro frames before frame after ih hstep
  obtain ⟨raw, hmoves, -⟩ := DecideStep.moves hstep
  rw [List.map_append, List.map_singleton]
  exact ih.step hmoves

/-! ## The resumed generations -/

/-- Every epoch the ticks declare was minted on a row of its own source; a book epoch that is not
positive needs none. -/
def EpochsMinted (events : List CadenceEvent) : Prop :=
  ∀ tick ∈ ticksOf events,
    ((∃ book ∈ ticksOf events, book.source = .book ∧
        tick.owned.bookSourceEpoch ≤ book.sourceEpoch) ∨
      ((∀ other ∈ ticksOf events, other.source ≠ .book) ∧ tick.owned.bookSourceEpoch ≤ 0)) ∧
    ∀ epoch ∈ tick.owned.marketStatusEpoch,
      ∃ status ∈ ticksOf events, status.source = .marketStatus ∧ epoch ≤ status.sourceEpoch

/-- The epochs of some observations all lie below the generations. -/
def SourceGenerations.Above (generations : SourceGenerations)
    (observations : List StrategyObservation) : Prop :=
  ∀ o ∈ observations, o.bookSourceEpoch < generations.bookSourceEpoch ∧
    (∀ epoch ∈ o.marketStatusEpoch, ∃ next ∈ generations.marketStatusEpoch, epoch < next) ∧
    ∀ leg ∈ o.guardFv, ∃ next ∈ generations.fvSourceEpoch, leg.fvSourceEpoch < next

/-- A frame carries the generations. -/
structure SourceGenerations.CarriedBy (generations : SourceGenerations)
    (frame : StrategyObservation) : Prop where
  book : frame.bookSourceEpoch = generations.bookSourceEpoch
  status : ∀ epoch ∈ frame.marketStatusEpoch, generations.marketStatusEpoch = some epoch
  fv : ∀ leg ∈ frame.guardFv, generations.fvSourceEpoch = some leg.fvSourceEpoch

/-- After some observations, a frame at the generations is neither a regression of an epoch nor of
the same generation, and it reconnects unless it is the first or its clock regresses. -/
def SourceGenerations.Reconnects (generations : SourceGenerations)
    (observations : List StrategyObservation) : Prop :=
  ∀ (platform : Platform) (config : StrategyConfig) (sessionId : String)
    (decisions : List StrategyDecision) (state : StrategyState) (frame : StrategyObservation),
    decideAll platform config sessionId {} observations = .ok (decisions, state) →
    generations.CarriedBy frame →
    admission frame state config =
      if observations = [] then .coldStart
      else if clockRegressed frame state then .clockRegression
      else .reconnect

theorem le_max?_getD_iff {epochs : List ℤ} {epoch : ℤ} :
    epoch ≤ epochs.max?.getD 0 ↔ (∃ e ∈ epochs, epoch ≤ e) ∨ (epochs = [] ∧ epoch ≤ 0) := by
  cases hmax : epochs.max? with
  | none =>
    rw [List.max?_eq_none_iff] at hmax
    subst hmax
    simp
  | some greatest =>
    obtain ⟨hmem, hmax⟩ := List.max?_eq_some_iff.mp hmax
    have hne : epochs ≠ [] := List.ne_nil_of_mem hmem
    constructor
    · intro h
      exact .inl ⟨greatest, hmem, h⟩
    · rintro (⟨e, he, hle⟩ | ⟨hnil, -⟩)
      · exact hle.trans (hmax e he)
      · exact absurd hnil hne

theorem lt_next_iff {epochs : List ℤ} {epoch : ℤ} :
    (∃ next ∈ epochs.max?.map (· + 1), epoch < next) ↔ ∃ e ∈ epochs, epoch ≤ e := by
  cases hmax : epochs.max? with
  | none =>
    rw [List.max?_eq_none_iff] at hmax
    subst hmax
    simp
  | some greatest =>
    obtain ⟨hmem, hmax⟩ := List.max?_eq_some_iff.mp hmax
    simp only [Option.map_some, Option.mem_some_iff, exists_eq_left', Int.lt_add_one_iff]
    constructor
    · intro h
      exact ⟨greatest, hmem, h⟩
    · rintro ⟨e, he, hle⟩
      exact hle.trans (hmax e he)

theorem MintSource.text_injective : Function.Injective MintSource.text := by
  intro a b h
  cases a <;> cases b <;> simp_all [MintSource.text]

theorem mem_epochsOf_tick {events : List CadenceEvent} {source : MintSource}
    (hsource : source ≠ .fv) {epoch : ℤ} :
    epoch ∈ epochsOf events source.text ↔
      ∃ tick ∈ ticksOf events, tick.source = source ∧ tick.sourceEpoch = epoch := by
  simp only [epochsOf, ticksOf, List.mem_map, List.mem_filter, List.mem_filterMap,
    decide_eq_true_eq, MintSource.text_injective.eq_iff]
  constructor
  · rintro ⟨event, ⟨hmem, hsame⟩, rfl⟩
    cases event with
    | fvArrival arrival => exact absurd hsame.symm hsource
    | observationTick tick => exact ⟨tick, ⟨_, hmem, rfl⟩, hsame, rfl⟩
  · rintro ⟨tick, ⟨event, hmem, htick⟩, hsame, rfl⟩
    cases event with
    | fvArrival arrival => cases htick
    | observationTick other =>
      cases htick
      exact ⟨_, ⟨hmem, hsame⟩, rfl⟩

theorem mem_epochsOf_fv {events : List CadenceEvent} {arrival : FvArrival}
    (h : .fvArrival arrival ∈ events) : arrival.sourceEpoch ∈ epochsOf events "fv" :=
  List.mem_map.mpr ⟨_, List.mem_filter.mpr ⟨h, by simp; rfl⟩, rfl⟩

/-- The verdict on a frame at generations above the observations so far. -/
theorem SourceGenerations.Above.reconnects {generations : SourceGenerations}
    {observations : List StrategyObservation} (h : generations.Above observations) :
    generations.Reconnects observations := by
  intro platform config sessionId decisions state frame hdecide hcarried
  have hwitnessed := Witnessed.of_decideAll hdecide
  by_cases hnil : observations = []
  · subst hnil
    obtain ⟨-, rfl⟩ := Prod.ext_iff.mp (Except.ok.inj hdecide)
    rfl
  · obtain ⟨lastEpoch, hlast⟩ := Option.ne_none_iff_exists'.mp (hwitnessed.seeded hnil)
    obtain ⟨o, ho, hbook⟩ := hwitnessed.book lastEpoch hlast
    have hbelow : lastEpoch < frame.bookSourceEpoch := by
      rw [hcarried.book, ← hbook]
      exact (h o ho).1
    have hguard : 0 ≤ guardEpochDelta frame state config := by
      unfold guardEpochDelta
      split_ifs
      · cases hleg : frame.guardFv with
        | none => exact le_rfl
        | some leg =>
          cases hmark : state.guardWatermark with
          | none => exact le_rfl
          | some watermark =>
            obtain ⟨o, ho, prior, hprior, hepoch⟩ := hwitnessed.guard watermark hmark
            obtain ⟨next, hnext, hlt⟩ := (h o ho).2.2 prior hprior
            rw [hcarried.fv leg hleg, Option.mem_some_iff] at hnext
            have hnot : ¬ leg.fvSourceEpoch < watermark.fvSourceEpoch := by omega
            simp only [hnot, if_false]
            split_ifs <;> decide
      · exact le_rfl
    rw [if_neg hnil]
    cases hclock : clockRegressed frame state with
    | true => simp [admission, hlast, hclock]
    | false =>
      rw [if_neg Bool.false_ne_true]
      exact admission_reconnect_iff.mpr ⟨lastEpoch, hlast, hclock, hguard, hbelow⟩

/-- The generations after a run are above what it released iff what its ticks declared was minted. -/
theorem above_iff {events : List CadenceEvent} {observations : List StrategyObservation}
    (h : List.Forall₂ (Released guardEnabled {e | e ∈ epochsOf events "fv"}) (ticksOf events)
      observations) :
    (resumeSourceGenerations {
      bookSourceEpoch := (epochsOf events "book").max?.getD 0
      fvSourceEpoch := (epochsOf events "fv").max?
      marketStatusEpoch := (epochsOf events "market_status").max? } guardEnabled).Above
        observations ↔ EpochsMinted events := by
  have hbook : ∀ {tick : ObservationTick} {o : StrategyObservation},
      Released guardEnabled {e | e ∈ epochsOf events "fv"} tick o →
      (o.bookSourceEpoch < (epochsOf events "book").max?.getD 0 + 1 ↔
        (∃ book ∈ ticksOf events, book.source = .book ∧
          tick.owned.bookSourceEpoch ≤ book.sourceEpoch) ∨
        ((∀ other ∈ ticksOf events, other.source ≠ .book) ∧ tick.owned.bookSourceEpoch ≤ 0)) := by
    intro tick o hreleased
    have hmem : ∀ epoch, epoch ∈ epochsOf events "book" ↔
        ∃ tick ∈ ticksOf events, tick.source = .book ∧ tick.sourceEpoch = epoch :=
      fun _ => mem_epochsOf_tick (show MintSource.book ≠ .fv by decide)
    have hnil : epochsOf events "book" = [] ↔
        ∀ other ∈ ticksOf events, other.source ≠ .book := by
      rw [List.eq_nil_iff_forall_not_mem]
      constructor
      · intro hnone other hother hsource
        exact hnone _ ((hmem _).mpr ⟨other, hother, hsource, rfl⟩)
      · intro hnone epoch hepoch
        obtain ⟨other, hother, hsource, -⟩ := (hmem epoch).mp hepoch
        exact hnone other hother hsource
    rw [Int.lt_add_one_iff, le_max?_getD_iff, hnil, hreleased.bookSourceEpoch]
    refine or_congr ⟨?_, ?_⟩ Iff.rfl
    · rintro ⟨epoch, hepoch, hle⟩
      obtain ⟨book, hin, hsource, rfl⟩ := (hmem epoch).mp hepoch
      exact ⟨book, hin, hsource, hle⟩
    · rintro ⟨book, hin, hsource, hle⟩
      exact ⟨_, (hmem _).mpr ⟨book, hin, hsource, rfl⟩, hle⟩
  have hstatus : ∀ {tick : ObservationTick} {o : StrategyObservation},
      Released guardEnabled {e | e ∈ epochsOf events "fv"} tick o →
      ((∀ epoch ∈ o.marketStatusEpoch,
        ∃ next ∈ (epochsOf events "market_status").max?.map (· + 1), epoch < next) ↔
        ∀ epoch ∈ tick.owned.marketStatusEpoch,
          ∃ status ∈ ticksOf events, status.source = .marketStatus ∧
            epoch ≤ status.sourceEpoch) := by
    intro tick o hreleased
    have hmem : ∀ epoch, epoch ∈ epochsOf events "market_status" ↔
        ∃ tick ∈ ticksOf events, tick.source = .marketStatus ∧ tick.sourceEpoch = epoch :=
      fun _ => mem_epochsOf_tick (show MintSource.marketStatus ≠ .fv by decide)
    rw [hreleased.marketStatusEpoch]
    refine forall₂_congr fun epoch _ => lt_next_iff.trans ⟨?_, ?_⟩
    · rintro ⟨minted, hminted, hle⟩
      obtain ⟨status, hin, hsource, rfl⟩ := (hmem minted).mp hminted
      exact ⟨status, hin, hsource, hle⟩
    · rintro ⟨status, hin, hsource, hle⟩
      exact ⟨_, (hmem _).mpr ⟨status, hin, hsource, rfl⟩, hle⟩
  constructor
  · intro habove tick htick
    obtain ⟨i, hi, rfl⟩ := List.mem_iff_getElem.mp htick
    have hlength := h.length_eq
    have hreleased := h.get hi (hlength ▸ hi)
    obtain ⟨hlt, hlt', -⟩ := habove _ (List.get_mem observations ⟨i, hlength ▸ hi⟩)
    exact ⟨(hbook hreleased).mp hlt, (hstatus hreleased).mp hlt'⟩
  · intro hminted o ho
    obtain ⟨i, hi, rfl⟩ := List.mem_iff_getElem.mp ho
    have hlength := h.length_eq
    have hreleased := h.get (hlength ▸ hi) hi
    obtain ⟨hlt, hlt'⟩ := hminted _ (List.get_mem (ticksOf events) ⟨i, hlength ▸ hi⟩)
    refine ⟨(hbook hreleased).mpr hlt, (hstatus hreleased).mpr hlt', ?_⟩
    intro leg hleg
    obtain ⟨rfl, hepoch⟩ := hreleased.leg leg hleg
    obtain ⟨greatest, hgreatest⟩ : ∃ greatest, (epochsOf events "fv").max? = some greatest := by
      cases hmax : (epochsOf events "fv").max? with
      | none =>
        rw [List.max?_eq_none_iff] at hmax
        simp [hmax] at hepoch
      | some greatest => exact ⟨greatest, rfl⟩
    refine ⟨greatest + 1, by simp [resumeSourceGenerations, hgreatest], ?_⟩
    have hle := (List.max?_eq_some_iff.mp hgreatest).2 _ hepoch
    omega

/-- **A restart never reuses a generation** iff every epoch the ticks declared was minted on a row of
its own source: then the epochs a resume hands out are above all that was released, and the first
frame at them reconnects. -/
theorem restart_generations_iff (format : FloatFormat F) (startMeta : StartMeta)
    (events : List CadenceEvent) (guardEnabled : Bool) (run : CadenceRun)
    (recorder : LiveRecorder F) (dir : SessionDir)
    (h : runFresh format startMeta events guardEnabled = .ok (run, recorder, dir)) :
    ∃ prior, readDurableSourceGenerations format dir = .ok prior ∧
      ((resumeSourceGenerations prior guardEnabled).Above run.observations ∧
        (resumeSourceGenerations prior guardEnabled).Reconnects run.observations ↔
          EpochsMinted events) := by
  obtain ⟨minted, last, hminted, hobservations, -⟩ := runFresh_ok h
  have hreleased : List.Forall₂ (Released guardEnabled {e | e ∈ epochsOf events "fv"})
      (ticksOf events) run.observations := by
    rw [hobservations]
    exact runCadenceFrom_released hminted (by simp) fun arrival hmem => mem_epochsOf_fv hmem
  refine ⟨_, readDurableSourceGenerations_run h, ?_⟩
  rw [← above_iff hreleased]
  exact ⟨And.left, fun habove => ⟨habove, habove.reconnects⟩⟩

/-- One book tick with a status of generation `0`, and no status tick: the resume hands out no status
generation at all. -/
theorem book_tick_status_unminted :
    ¬ ∀ (startMeta : StartMeta) (events : List CadenceEvent) (guardEnabled : Bool)
        (run : CadenceRun) (recorder : LiveRecorder FloatText) (dir : SessionDir),
        runFresh textFormat startMeta events guardEnabled = .ok (run, recorder, dir) →
        ∃ prior, readDurableSourceGenerations textFormat dir = .ok prior ∧
          (resumeSourceGenerations prior guardEnabled).Above run.observations := by
  intro h
  have hrun : ∃ run recorder dir, runFresh textFormat plainMeta
      [.observationTick (echoTick .book (by decide) 0 100)] false = .ok (run, recorder, dir) ∧
      run.observations.map (·.marketStatusEpoch) = [some 0] := ⟨_, _, _, rfl, rfl⟩
  obtain ⟨run, recorder, dir, hrun, hstatus⟩ := hrun
  obtain ⟨prior, hprior, habove⟩ := h _ _ _ _ _ _ hrun
  rw [readDurableSourceGenerations_run hrun] at hprior
  obtain rfl := Except.ok.inj hprior
  obtain ⟨o, ho, hepoch⟩ := List.mem_map.mp (hstatus ▸ List.mem_singleton_self (some (0 : ℤ)))
  obtain ⟨next, hnext, -⟩ := (habove o ho).2.1 0 hepoch
  cases hnext

/-- A status tick, then a book tick, both of generation `0`. -/
def statusThenBook : List CadenceEvent :=
  [.observationTick (echoTick .marketStatus (by decide) 0 100),
    .observationTick (echoTick .book book_ne_fv 0 200)]

theorem restart_generations_iff_statusThenBook :
    ∃ run recorder dir prior,
      runFresh textFormat plainMeta statusThenBook true = .ok (run, recorder, dir) ∧
      readDurableSourceGenerations textFormat dir = .ok prior ∧
      ((resumeSourceGenerations prior true).Above run.observations ∧
        (resumeSourceGenerations prior true).Reconnects run.observations ↔
          EpochsMinted statusThenBook) := by
  obtain ⟨prior, hprior, hiff⟩ := restart_generations_iff textFormat plainMeta statusThenBook true
    _ _ _ rfl
  exact ⟨_, _, _, prior, rfl, hprior, hiff⟩

end Veridex.MmStrategy
