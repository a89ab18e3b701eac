import Veridex.Lib.Run
import Veridex.MmStrategy.Transitions

/-!
# Runs of `decide`

`decideAll` folds a list of observations through `decide`; a `StrategyRun` is such a fold, seen as a
labelled run: each label is an observation and the decision taken on it. Every list has its run from
`StrategyState()` (`exists_run`), and one only (`decideAll_of_run`).

`StrategyState.Seeded` is the shape of the watermark: nothing is set before the first accepted frame,
and the clock, the sequence and the book epoch are set from then on.
-/

namespace Veridex.MmStrategy

open Veridex.Py Veridex.Lib

variable (platform : Platform) (config : StrategyConfig) (sessionId : String)

/-- A list of observations folded through `decide`. -/
def decideAll : StrategyState → List StrategyObservation →
    Except PyExc (List StrategyDecision × StrategyState)
  | state, [] => .ok ([], state)
  | state, observation :: observations => do
    let (decision, nextState) ← decideFrame platform observation state config sessionId
    let (decisions, lastState) ← decideAll nextState observations
    return (decision :: decisions, lastState)

/-- One frame of a run: the observation, and the decision on it. -/
abbrev Frame := StrategyObservation × StrategyDecision

/-- One call of `decide`. -/
def DecideStep (state : StrategyState) (frame : Frame) (nextState : StrategyState) : Prop :=
  decideFrame platform frame.1 state config sessionId = .ok (frame.2, nextState)

/-- A run of `decide` between two states. -/
abbrev StrategyRun : StrategyState → List Frame → StrategyState → Prop :=
  Run (DecideStep platform config sessionId)

variable {platform config sessionId}
variable {state nextState : StrategyState} {frame : Frame} {frames : List Frame}

theorem DecideStep.moves (h : DecideStep platform config sessionId state frame nextState) :
    ∃ raw, Moves platform frame.1 state config raw nextState ∧
      frame.2 = stampIdentity platform frame.1 config
        (funnelCancelOnExposure frame.1 raw) state nextState sessionId :=
  decideFrame_cases h

/-! ## Folds and runs -/

theorem decideAll_of_run (h : StrategyRun platform config sessionId state frames nextState) :
    decideAll platform config sessionId state (frames.map Prod.fst) =
      .ok (frames.map Prod.snd, nextState) := by
  induction frames generalizing state with
  | nil =>
    obtain rfl := h.nil_inv
    rfl
  | cons frame frames ih =>
    obtain ⟨middle, hstep, hrest⟩ := h.cons_inv
    exact bind_eq_ok.mpr ⟨(frame.2, middle), hstep, bind_eq_ok.mpr ⟨_, ih hrest, rfl⟩⟩

/-- A run is determined by where it starts and what it observes. -/
theorem StrategyRun.unique {others : List Frame} {lastState otherState : StrategyState}
    (h₁ : StrategyRun platform config sessionId state frames lastState)
    (h₂ : StrategyRun platform config sessionId state others otherState)
    (hsame : frames.map Prod.fst = others.map Prod.fst) :
    frames.map Prod.snd = others.map Prod.snd ∧ lastState = otherState := by
  have hfold := (decideAll_of_run h₁).symm
  rw [hsame, decideAll_of_run h₂] at hfold
  obtain ⟨hdecisions, hstate⟩ := Prod.ext_iff.mp (Except.ok.inj hfold)
  exact ⟨hdecisions, hstate⟩

theorem run_of_decideAll {observations : List StrategyObservation}
    {decisions : List StrategyDecision}
    (h : decideAll platform config sessionId state observations = .ok (decisions, nextState)) :
    ∃ frames, frames.map Prod.fst = observations ∧ frames.map Prod.snd = decisions ∧
      StrategyRun platform config sessionId state frames nextState := by
  induction observations generalizing state decisions with
  | nil =>
    obtain ⟨rfl, rfl⟩ := Prod.ext_iff.mp (Except.ok.inj h)
    exact ⟨[], rfl, rfl, .nil⟩
  | cons observation observations ih =>
    obtain ⟨⟨decision, middle⟩, hfirst, h⟩ := bind_eq_ok.mp h
    obtain ⟨⟨rest, lastState⟩, hrest, h⟩ := bind_eq_ok.mp h
    obtain ⟨rfl, rfl⟩ := Prod.ext_iff.mp (Except.ok.inj h)
    obtain ⟨frames, rfl, rfl, hrun⟩ := ih hrest
    exact ⟨(observation, decision) :: frames, rfl, rfl, Run.cons hfirst hrun⟩

/-- The run of a fold, by what is seen of its decisions. -/
theorem run_of_view {α : Type} {view : StrategyDecision → α} {views : List α}
    {observations : List StrategyObservation}
    (h : (decideAll platform config sessionId state observations).map
      (fun result => result.1.map view) = .ok views) :
    ∃ frames lastState, frames.map Prod.fst = observations ∧
      frames.map (fun frame => view frame.2) = views ∧
      StrategyRun platform config sessionId state frames lastState := by
  cases hall : decideAll platform config sessionId state observations with
  | error e =>
    rw [hall] at h
    cases h
  | ok result =>
    rw [hall] at h
    obtain ⟨frames, hobservations, hdecisions, hrun⟩ := run_of_decideAll hall
    have hviews : result.1.map view = views := Except.ok.inj h
    refine ⟨frames, result.2, hobservations, ?_, hrun⟩
    rw [← hviews, ← hdecisions, List.map_map]
    rfl

/-! ## Soundness and totality -/

theorem StrategyState.Sound.run (h : StrategyRun platform config sessionId state frames nextState)
    (hsound : state.Sound config) : nextState.Sound config := by
  refine h.invariant (fun _ state => state.Sound config) hsound fun _ _ _ _ ih hstep => ?_
  obtain ⟨raw, hmoves, -⟩ := DecideStep.moves hstep
  exact hmoves.sound ih

/-- **Every list of observations has its run.** -/
theorem exists_run (platform : Platform) (config : StrategyConfig) (sessionId : String)
    (observations : List StrategyObservation) : ∃ frames state,
      frames.map Prod.fst = observations ∧
        StrategyRun platform config sessionId {} frames state := by
  induction observations using List.reverseRecOn with
  | nil => exact ⟨[], {}, rfl, .nil⟩
  | append_singleton observations observation ih =>
    obtain ⟨frames, state, rfl, hrun⟩ := ih
    have hsound : state.Sound config := StrategyState.Sound.run hrun .init
    obtain ⟨⟨decision, nextState⟩, hstep⟩ := decideFrame_ok platform observation hsound sessionId
    exact ⟨frames ++ [(observation, decision)], nextState, by simp, .snoc hrun hstep⟩

/-! ## The shape of the watermark -/

/-- Nothing is set before the first accepted frame, and these three are from then on. -/
def StrategyState.Seeded (state : StrategyState) : Prop :=
  state = {} ∨ ∃ epoch asOfTs sequence, state.lastBookSourceEpoch = some epoch ∧
    state.lastAsOfTs = some asOfTs ∧ state.lastObservationSequence = some sequence

theorem Moves.seeded {observation : StrategyObservation} {decision : StrategyDecision}
    (h : Moves platform observation state config decision nextState) (hstate : state.Seeded) :
    nextState.Seeded := by
  rcases h.accepted with ⟨-, rfl⟩ | ⟨-, hwatermark⟩
  · exact hstate
  · simp only [StrategyState.watermark, Watermark.mk.injEq] at hwatermark
    exact .inr ⟨_, _, _, hwatermark.2.1, hwatermark.2.2.1, hwatermark.1⟩

theorem StrategyState.Seeded.run (h : StrategyRun platform config sessionId state frames nextState)
    (hstate : state.Seeded) : nextState.Seeded := by
  refine h.invariant (fun _ state => state.Seeded) hstate fun _ _ _ _ ih hstep => ?_
  obtain ⟨raw, hmoves, -⟩ := DecideStep.moves hstep
  exact hmoves.seeded ih

theorem StrategyState.Seeded.of_run
    (h : StrategyRun platform config sessionId {} frames state) : state.Seeded :=
  StrategyState.Seeded.run h (.inl rfl)

/-! ## Decisions that place -/

theorem places_stampIdentity {observation : StrategyObservation} {decision : StrategyDecision} :
    (stampIdentity platform observation config decision state nextState sessionId).Places ↔
      decision.Places := by
  simp [StrategyDecision.Places, stampIdentity, stampLeg_kind]

/-- The funnel only ever cancels. -/
theorem places_of_funnel {observation : StrategyObservation} {decision : StrategyDecision}
    (h : (funnelCancelOnExposure observation decision).Places) :
    funnelCancelOnExposure observation decision = decision := by
  unfold funnelCancelOnExposure at h ⊢
  split_ifs at h ⊢ with hkind
  · rfl
  · simp [StrategyDecision.Places, cancelExposurePlan] at h

theorem placesOn_stampIdentity {observation : StrategyObservation} {decision : StrategyDecision}
    {side : Side} :
    (stampIdentity platform observation config decision state nextState sessionId).PlacesOn side ↔
      decision.PlacesOn side := by
  simp [StrategyDecision.PlacesOn, stampIdentity, stampLeg_kind, stampLeg_legRole]

/-- The state the watermark layer hands the reducer for a frame that passes it. -/
def advancedBase (observation : StrategyObservation) (state : StrategyState)
    (config : StrategyConfig) : StrategyState :=
  accept observation state config false (0 < guardEpochDelta observation state config)

/-- The frame reaches the quote disposition: it passes the watermark layer, is in row H, or in row F
over warm references, and no blocker stops it. -/
structure Quotable (observation : StrategyObservation) (state : StrategyState)
    (config : StrategyConfig) : Prop where
  passes : ∃ fvReset, admission observation state config = .pass fvReset
  row : classifyRow observation state config = .ok .H ∨
    (classifyRow observation state config = .ok .F ∧ referencesWarm state config = true)
  unblocked : quoteBlocker observation (advancedBase observation state config) config = none

/-- A decision with no legs, to quote nothing or to hold. -/
def Idle (decision : StrategyDecision) : Prop :=
  decision.intentPlan = [] ∧ (decision.kind = .noQuote ∨ decision.kind = .hold)

theorem accept_warm {observation : StrategyObservation} (fvReset : Bool) :
    referencesWarm (accept observation state config false fvReset) config =
      referencesWarm state config := by
  cases fvReset <;> rfl

theorem Quotable.of_row {observation : StrategyObservation} {row : Row}
    (h : Quotable observation state config) (hrow : classifyRow observation state config = .ok row) :
    row = .H ∨ (row = .F ∧ referencesWarm state config = true) := by
  obtain hH | ⟨hF, hwarm⟩ := h.row
  · rw [hH] at hrow
    exact .inl (Except.ok.inj hrow).symm
  · rw [hF] at hrow
    exact .inr ⟨(Except.ok.inj hrow).symm, hwarm⟩

/-- **The decision of a frame**: that of the disposition, where the frame reaches it and its target
is not resting already; nothing otherwise. -/
theorem Moves.quoting_cases {observation : StrategyObservation} {raw : StrategyDecision}
    (h : Moves platform observation state config raw nextState) :
    (Idle raw ∧ (Quotable observation state config → ∃ decision,
      quoteDisposition platform.halfPow observation (advancedBase observation state config) config =
        .ok decision ∧ targetIsUnchanged observation config decision = true)) ∨
    (Quotable observation state config ∧
      quoteDisposition platform.halfPow observation (advancedBase observation state config) config =
        .ok raw ∧ targetIsUnchanged observation config raw = false) := by
  -- a frame outside rows F and H does not reach the disposition
  have hother : ∀ {row : Row}, classifyRow observation state config = .ok row →
      row ≠ .H → row ≠ .F → ¬ Quotable observation state config := by
    intro row hrow hH hF hquotable
    obtain h | ⟨h, -⟩ := hquotable.of_row hrow
    · exact hH h
    · exact hF h
  cases h with
  | coldStart verdict =>
    refine .inl ⟨⟨rfl, .inr rfl⟩, fun hquotable => ?_⟩
    obtain ⟨fvReset, hpass⟩ := hquotable.passes
    rw [verdict] at hpass
    cases hpass
  | rejected reason verdict =>
    refine .inl ⟨⟨rfl, .inr rfl⟩, fun hquotable => ?_⟩
    obtain ⟨fvReset, hpass⟩ := hquotable.passes
    rw [hpass] at verdict
    cases verdict
  | reconnect verdict =>
    refine .inl ⟨⟨rfl, .inl rfl⟩, fun hquotable => ?_⟩
    obtain ⟨fvReset, hpass⟩ := hquotable.passes
    rw [verdict] at hpass
    cases hpass
  | reset fvReset verdict row =>
    exact .inl ⟨⟨rfl, .inl rfl⟩, fun h => absurd h (hother row (by decide) (by decide))⟩
  | event fvReset reason verdict row =>
    exact .inl ⟨⟨rfl, .inl rfl⟩, fun h => absurd h (hother row (by decide) (by decide))⟩
  | degraded fvReset reasons verdict row =>
    exact .inl ⟨⟨rfl, .inl rfl⟩, fun h => absurd h (hother row (by decide) (by decide))⟩
  | cooling fvReset verdict row =>
    exact .inl ⟨⟨rfl, .inl rfl⟩, fun h => absurd h (hother row (by decide) (by decide))⟩
  | healthy fvReset row decision verdict classified admits decided =>
    have hbase : accept observation state config false fvReset =
        advancedBase observation state config := by
      obtain ⟨-, -, -, -, rfl⟩ := admission_pass_iff.mp verdict
      rfl
    rw [hbase] at decided
    unfold applyHealthy at decided
    dsimp only at decided
    by_cases hwarmup : row = .W ∨
        (row = .F ∧ referencesWarm (advancedBase observation state config) config = false)
    · rw [if_pos hwarmup] at decided
      obtain ⟨rfl, -⟩ := Prod.ext_iff.mp (Except.ok.inj decided)
      refine .inl ⟨⟨rfl, .inl rfl⟩, fun hquotable => ?_⟩
      rw [advancedBase, accept_warm] at hwarmup
      obtain rfl | ⟨rfl, hwarm⟩ := hquotable.of_row classified
      · simp at hwarmup
      · simp [hwarm] at hwarmup
    · rw [if_neg hwarmup] at decided
      rw [not_or, not_and, Bool.not_eq_false, advancedBase, accept_warm] at hwarmup
      cases hblock : quoteBlocker observation (advancedBase observation state config) config with
      | some blocker =>
        rw [hblock] at decided
        obtain ⟨rfl, -⟩ := Prod.ext_iff.mp (Except.ok.inj decided)
        refine .inl ⟨⟨rfl, .inl rfl⟩, fun hquotable => ?_⟩
        rw [hquotable.unblocked] at hblock
        cases hblock
      | none =>
        have hquotable : Quotable observation state config := by
          refine ⟨⟨fvReset, verdict⟩, ?_, hblock⟩
          rcases admits with rfl | rfl | rfl
          · exact .inr ⟨classified, hwarmup.2 rfl⟩
          · exact absurd rfl hwarmup.1
          · exact .inl classified
        rw [hblock] at decided
        obtain ⟨disposition, hdisposition, decided⟩ := bind_eq_ok.mp decided
        by_cases hunchanged : targetIsUnchanged observation config disposition = true
        · rw [if_pos hunchanged] at decided
          obtain ⟨rfl, -⟩ := Prod.ext_iff.mp (Except.ok.inj decided)
          exact .inl ⟨⟨rfl, .inr rfl⟩, fun _ => ⟨disposition, hdisposition, hunchanged⟩⟩
        · rw [if_neg hunchanged] at decided
          obtain ⟨rfl, -⟩ := Prod.ext_iff.mp (Except.ok.inj decided)
          exact .inr ⟨hquotable, hdisposition, by simpa using hunchanged⟩

/-- A frame that places reaches the disposition, and its decision is the disposition's. -/
theorem DecideStep.places (h : DecideStep platform config sessionId state frame nextState)
    (hplaces : frame.2.Places) : Quotable frame.1 state config ∧ ∃ disposition,
      quoteDisposition platform.halfPow frame.1 (advancedBase frame.1 state config) config =
        .ok disposition ∧
      frame.2 = stampIdentity platform frame.1 config disposition state nextState sessionId := by
  obtain ⟨raw, hmoves, hdecision⟩ := h.moves
  rw [hdecision, places_stampIdentity] at hplaces
  have hfunnel := places_of_funnel hplaces
  rw [hfunnel] at hplaces hdecision
  obtain ⟨⟨hplan, -⟩, -⟩ | ⟨hquotable, hdisposition, -⟩ := hmoves.quoting_cases
  · obtain ⟨leg, hleg, -⟩ := hplaces
    rw [hplan] at hleg
    cases hleg
  · exact ⟨hquotable, raw, hdisposition, hdecision⟩

/-! ## A healthy book -/

/-- A frame of a healthy two-sided book under an active market, read at `asOfTs`. -/
def healthyFrame (sequence asOfTs : ℤ) (bid ask : ℚ) (resting : List RestingOrderView) :
    StrategyObservation where
  fixtureId := 1
  marketRef := "m"
  side := "yes"
  tokenId := "t"
  venueMarketRef := "v"
  tickSize := 1 / 100
  observationSequence := sequence
  bookSourceEpoch := 0
  bid := some bid
  ask := some ask
  bidSize := some 100
  askSize := some 100
  bookStatus := .ok
  statusReason := none
  bookRecvTs := asOfTs
  levelCountInBand := 5
  tickRegimeChanged := false
  phase := 1
  suspended := false
  matchStateRecvTs := asOfTs
  marketStatus := .active
  marketStatusRecvTs := some asOfTs
  marketStatusEpoch := some 0
  orderStreamOk := true
  projectionFresh := true
  inventory := { netPosition := 0, resting, projectionAsOfTs := asOfTs, fresh := true }
  asOfTs := asOfTs
  statusRecvTs_iff := by simp
  statusEpoch_iff := by simp
  bookRecvTs_le := le_rfl
  matchStateRecvTs_le := le_rfl
  statusRecvTs_le := by simp
  fvRecvTs_le := by simp

/-- A configuration whose references and basis are warm after one frame. -/
def promptConfig (guardEnabled : Bool) : StrategyConfig where
  guardEnabled := guardEnabled
  refMinSamples := 1
  basisMinSamples := 1

/-- A configuration the validators accept, whose spread window is narrower than a warm reference. -/
def narrowConfig : StrategyConfig where
  guardEnabled := false
  refMinSamples := 2
  rollingSpreadWindow := 1

/-- A platform: full weight on the prior estimate, and digests that tell nothing apart. -/
def flatPlatform : Platform where
  halfPow := fun _ => 1
  observationHash := fun _ => ""
  configHash := fun _ => ""
  stateHash := fun _ => ""
  decisionId := fun _ _ _ _ _ _ => ""
  clientOrderId := fun _ _ => ""

end Veridex.MmStrategy
